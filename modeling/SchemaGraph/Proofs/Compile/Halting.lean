import SchemaGraph.Proofs.Compile.Agree
import SchemaGraph.Proofs.Compile.Requests
import SchemaGraph.Proofs.Declared.Changes

/-!
# Every request comes to an end

The compiler goes wherever references lead, and references lead in circles. What stops
it is what it keeps: it does not enter a node that is in progress, and it leaves a node
that is kept at once. So each level of the descent has a node behind it that none of the
levels above had, and the number of nodes bounds the depth. For the shapes of inputs it
is the same with the table of shapes, which knows an input object before its fields are
looked at.

No assumption is made on the registry, nor on the state: the compiler may have answered
other requests before, or have failed to.
-/

set_option autoImplicit false

namespace SchemaGraph

/-! ## What is left to do -/

namespace CompileState

variable {r : Registry} {s : CompileState}

/-- The compiler does not descend at this node: it is in progress, or kept, or no type. -/
def passes (r : Registry) (s : CompileState) (id : NodeId) : Bool :=
  s.inProgress.contains id ||
    match r.node id with
    | .object _ => (s.objects.find? id).isSome
    | .interface _ => (s.interfaces.find? id).isSome
    | .inputObject _ => (s.inputObjects.find? id).isSome
    | _ => true

/-- The types at which the compiler may still descend. -/
def ahead (r : Registry) (s : CompileState) : Finset NodeId := undone r.size (s.passes r)

/-- The nodes whose shape the compiler may still look into. -/
def shapeless (r : Registry) (s : CompileState) : Finset NodeId :=
  undone r.size s.shapes.contains

def mark (id : NodeId) (s : CompileState) : CompileState :=
  { s with inProgress := s.inProgress.insert id }

/-- There are at most `n` types to descend at. -/
def Room (r : Registry) (n : Nat) (s : CompileState) : Prop := (s.ahead r).card ≤ n

/-- There are at most `n` types to descend at from a type that is being compiled. -/
def RoomBelow (r : Registry) (id : NodeId) (n : Nat) (s : CompileState) : Prop :=
  Room r n (s.mark id)

end CompileState

namespace Compile

open CompileState

variable {α : Type} {r : Registry} {e₁ e₂ : NodeId → CompileM Unit} {m n : Nat}

theorem blind_room : Blind (Room r n) where
  dispatch _ _ hs := hs
  given _ _ hs := hs
  unionMembers _ _ hs := hs

theorem room_size (s : CompileState) : Room r r.size s := card_undone_le

/-! ## Shapes -/

/-- There are at most `k` shapes to look into, and `n` types to descend at. -/
def ShapeRoom (r : Registry) (k n : Nat) (s : CompileState) : Prop :=
  (s.shapeless r).card ≤ k ∧ Room r n s

section Shapes

variable {s : CompileState} {id : NodeId} {shape? : Option InputObjectShape}

theorem contains_insert_of_contains {i : NodeId} (h : s.shapes.contains i = true) :
    (s.shapes.insert id shape?).contains i = true :=
  OrderedMap.contains_insert.mpr (Or.inr h)

/-- A shape that is known stays known. -/
theorem card_shapeless_le :
    (shapeless r { s with shapes := s.shapes.insert id shape? }).card ≤ (s.shapeless r).card :=
  card_undone_mono fun _ => contains_insert_of_contains

/-- A shape that was not known is done. -/
theorem card_shapeless_lt (hid : id < r.size) (h : s.shapes.contains id = false) :
    (shapeless r { s with shapes := s.shapes.insert id shape? }).card < (s.shapeless r).card :=
  card_undone_lt (fun _ => contains_insert_of_contains) hid h
    (OrderedMap.contains_insert.mpr (Or.inl rfl))

theorem lt_size_of_inputFields? {ids : List NodeId}
    (h : (r.node id).inputFields? = some ids) : id < r.size := by
  refine Registry.lt_size_of_node_ne fun habsent => ?_
  rw [habsent] at h
  cases h

end Shapes

/-- A bound above the number of shapes to look into is not reached. -/
theorem inputShapeWithin_agree {k : Nat} : ∀ {d₁ d₂ : Nat} (id : NodeId), k < d₁ → k < d₂ →
    Agree (ShapeRoom r k n) (ShapeRoom r k n) (inputShapeWithin r d₁ id)
      (inputShapeWithin r d₂ id) := by
  induction k using Nat.strong_induction_on with
  | _ k ih =>
      intro d₁ d₂ id h₁ h₂
      obtain ⟨d₁, rfl⟩ : ∃ d, d₁ = d + 1 := ⟨d₁ - 1, by omega⟩
      obtain ⟨d₂, rfl⟩ : ∃ d, d₂ = d + 1 := ⟨d₂ - 1, by omega⟩
      simp only [inputShapeWithin]
      refine .get_bind fun t ht => ?_
      split
      · exact .pure (fun s hs => hs ▸ ht) _
      · next hnew =>
          split
          · next ids construct hids _ =>
              -- Once it is entered, fewer shapes are left for those below.
              let t' : CompileState := { t with shapes := t.shapes.insert id none }
              have hless : (t'.shapeless r).card < k :=
                Nat.lt_of_lt_of_le (card_shapeless_lt (lt_size_of_inputFields? hids)
                  (by simpa using hnew)) ht.1
              have hentered : Agree (· = t) (ShapeRoom r (t'.shapeless r).card n)
                  (keepShape id none) (keepShape id none) := by
                refine .modify ?_
                rintro s rfl
                exact ⟨Nat.le_refl _, ht.2⟩
              have hfields : Agree (ShapeRoom r (t'.shapeless r).card n)
                  (ShapeRoom r (t'.shapeless r).card n)
                  (fieldShapes r (inputShapeWithin r d₁) ids)
                  (fieldShapes r (inputShapeWithin r d₂) ids) :=
                fieldShapes_agree (fun i => ih _ hless i (by omega) (by omega)) ids
              refine hentered.bind fun _ => hfields.bind fun fields => .modify fun s hs => ?_
              exact ⟨card_shapeless_le.trans (hs.1.trans (Nat.le_of_lt hless)), hs.2⟩
          · exact .throw rfl

theorem inputShape_agree (id : NodeId) :
    Agree (Room r n) (Room r n) (inputShape r id) (inputShape r id) :=
  (inputShapeWithin_agree id (Nat.lt_succ_self r.size) (Nat.lt_succ_self r.size)).imp
    (fun _ hs => ⟨card_undone_le, hs⟩) fun _ hs => hs.2

theorem valueShape_agree (l : Link) :
    Agree (Room r n) (Room r n) (valueShape r l) (valueShape r l) :=
  shapeOfLink_agree inputShape_agree l

/-! ## Fields -/

/-- The two ways to descend agree where there are at most `n` types to descend at. -/
def Descend (r : Registry) (n : Nat) (e₁ e₂ : NodeId → CompileM Unit) : Prop :=
  ∀ id, Agree (Room r n) (Room r n) (e₁ id) (e₂ id)

theorem inputs_agree (henter : Descend r n e₁ e₂) (owner : String) (ids : List NodeId) :
    ∀ compiled, Agree (Room r n) (Room r n) (inputs r e₁ owner ids compiled)
      (inputs r e₂ owner ids compiled) := by
  induction ids with
  | nil => exact fun _ => .answer _
  | cons id rest ih =>
      exact fun compiled => (Agree.lift (r.linkInput_ends id)).bind fun _ =>
        (inputLink_agree blind_room henter _ _ _ _).bind fun _ => ih _

theorem argMapping_agree (arg : LinkedArg) :
    Agree (Room r n) (Room r n) (argMapping r arg) (argMapping r arg) := by
  have hvalue : Agree (Room r n) (Room r n)
      (do return .raw arg.decl.name (← valueShape r arg.type) : CompileM ArgumentMapping)
      (do return .raw arg.decl.name (← valueShape r arg.type)) :=
    (valueShape_agree _).bind fun _ => .answer _
  unfold argMapping
  dsimp only
  split
  · split
    · exact (inputShape_agree _).bind fun _ => .answer _
    · exact hvalue
  · exact hvalue

theorem arguments_agree (henter : Descend r n e₁ e₂) (owner : String) (f : LinkedField) :
    Agree (Room r n) (Room r n) (arguments r e₁ owner f) (arguments r e₂ owner f) := by
  unfold arguments
  split
  · exact .throw rfl
  · exact (inputLink_agree blind_room henter _ _ _ _).bind fun _ =>
      (argMapping_agree _).bind fun _ => .answer _
  · dsimp only
    split
    · exact .throw rfl
    · exact (inputs_agree henter _ _ _).bind fun _ => (inputShape_agree _).bind fun _ =>
        .answer _
  · exact .answer _

theorem field_agree (henter : Descend r n e₁ e₂) (owner : String) (id : NodeId) :
    Agree (Room r n) (Room r n) (field r e₁ owner id) (field r e₂ owner id) :=
  (Agree.lift (r.linkField_ends id)).bind fun f =>
    (outputLink_agree blind_room henter _ _ _ _).bind fun _ =>
      (arguments_agree henter owner f).bind fun _ => .answer _

theorem fields_agree (henter : Descend r n e₁ e₂) (owner : String) (ids : List NodeId) :
    ∀ compiled, Agree (Room r n) (Room r n) (fields r e₁ owner ids compiled)
      (fields r e₂ owner ids compiled) := by
  induction ids with
  | nil => exact fun _ => .answer _
  | cons id rest ih => exact fun compiled => (field_agree henter owner id).bind fun _ => ih _

theorem interfaceNames_agree (henter : Descend r n e₁ e₂) (ids : List NodeId) :
    Agree (Room r n) (Room r n) (interfaceNames r e₁ ids) (interfaceNames r e₂ ids) := by
  induction ids with
  | nil => exact .answer _
  | cons id rest ih =>
      exact (nodeRef_agree blind_room henter id).bind fun _ => ih.bind fun _ => .answer _

theorem objectBody_agree (henter : Descend r n e₁ e₂) (id : NodeId) :
    Agree (Room r n) (Room r n) (objectBody r e₁ id) (objectBody r e₂ id) :=
  (Agree.lift (r.chain_ends id)).bind fun _ => (interfaceNames_agree henter _).bind fun _ =>
    (fields_agree henter _ _ _).bind fun _ => .answer _

/-! ## Types -/

section Marks

variable {s s' : CompileState} {id i : NodeId}

theorem passes_mark : (s.mark id).passes r i = true ↔ i = id ∨ s.passes r i = true := by
  simp only [passes, mark, Bool.or_eq_true, List.contains_iff_mem, List.mem_insert_iff, or_assoc]

/-- A node that is marked is not entered again. -/
theorem card_ahead_mark_lt (hid : id < r.size) (h : s.passes r id = false) :
    ((s.mark id).ahead r).card < (s.ahead r).card := by
  refine card_undone_lt (fun i hi => ?_) hid h ?_
  · rw [passes_mark]
    exact Or.inr hi
  · rw [passes_mark]
    exact Or.inl rfl

/-- A mark that is taken away can be put back. -/
theorem room_erase (h : Room r n s) :
    RoomBelow r id n { s with inProgress := s.inProgress.erase id } := by
  refine (card_undone_mono fun i hi => ?_).trans h
  rw [passes_mark]
  by_cases heq : i = id
  · exact Or.inl heq
  · right
    simpa only [passes, Bool.or_eq_true, List.contains_iff_mem,
      List.mem_erase_of_ne heq] using hi

/-- Instead of being marked a node may be kept. -/
theorem room_of_kept (h : RoomBelow r id n s) (hmarks : s'.inProgress = s.inProgress)
    (hobjects : ∀ i, (s.objects.find? i).isSome → (s'.objects.find? i).isSome)
    (hinterfaces : ∀ i, (s.interfaces.find? i).isSome → (s'.interfaces.find? i).isSome)
    (hinputs : ∀ i, (s.inputObjects.find? i).isSome → (s'.inputObjects.find? i).isSome)
    (hid : s'.passes r id = true) : Room r n s' := by
  refine (card_undone_mono fun i hi => ?_).trans h
  rw [passes_mark] at hi
  rcases hi with rfl | hi
  · exact hid
  · unfold passes at hi ⊢
    rw [hmarks]
    rw [Bool.or_eq_true] at hi ⊢
    refine hi.imp_right fun hkept => ?_
    split at hkept
    · exact hobjects i hkept
    · exact hinterfaces i hkept
    · exact hinputs i hkept
    · rfl

theorem isSome_insert {α : Type} {m : OrderedMap NodeId α} {a : α} (i : NodeId)
    (h : (m.find? i).isSome) : ((m.insert id a).find? i).isSome := by
  rw [OrderedMap.find?_insert]
  split
  · rfl
  · exact h

theorem isSome_insert_self {α : Type} {m : OrderedMap NodeId α} {a : α} :
    ((m.insert id a).find? id).isSome := by
  rw [OrderedMap.find?_insert, if_pos rfl]
  rfl

theorem keepObject_agree {o : ObjectNode} (hn : r.node id = .object o) (c : CompiledObject) :
    Agree (RoomBelow r id n) (Room r n) (keepObject id c) (keepObject id c) := by
  refine .modify fun s hs =>
    room_of_kept hs rfl isSome_insert (fun _ h => h) (fun _ h => h) ?_
  simp only [passes, hn, isSome_insert_self, Bool.or_true]

theorem keepInterface_agree {o : InterfaceNode} (hn : r.node id = .interface o)
    (c : CompiledInterface) :
    Agree (RoomBelow r id n) (Room r n) (keepInterface id c) (keepInterface id c) := by
  refine .modify fun s hs =>
    room_of_kept hs rfl (fun _ h => h) isSome_insert (fun _ h => h) ?_
  simp only [passes, hn, isSome_insert_self, Bool.or_true]

theorem keepInputObject_agree {o : InputObjectNode} (hn : r.node id = .inputObject o)
    (c : CompiledInputObject) :
    Agree (RoomBelow r id n) (Room r n) (keepInputObject id c) (keepInputObject id c) := by
  refine .modify fun s hs =>
    room_of_kept hs rfl (fun _ h => h) (fun _ h => h) isSome_insert ?_
  simp only [passes, hn, isSome_insert_self, Bool.or_true]

end Marks

theorem inProgress_agree {x y : CompileM α} (h : Agree (Room r n) (Room r n) x y)
    (id : NodeId) : Agree (RoomBelow r id n) (RoomBelow r id n) (inProgress id x)
      (inProgress id y) := by
  intro s hs
  obtain ⟨hsame, herror, hok⟩ := h (s.mark id) hs
  unfold inProgress
  rw [show y { s with inProgress := s.inProgress.insert id } = x (s.mark id) from hsame.symm,
    show x { s with inProgress := s.inProgress.insert id } = x (s.mark id) from rfl]
  cases hx : x (s.mark id) with
  | ok a s₁ =>
      refine ⟨rfl, ?_, ?_⟩
      · rintro _ _ ⟨⟩
      · rintro _ _ ⟨⟩
        exact room_erase (hok a s₁ hx)
  | error e s₁ =>
      refine ⟨rfl, ?_, ?_⟩
      · rintro _ _ ⟨⟩
        exact herror e s₁ hx
      · rintro _ _ ⟨⟩

/-! A type that is asked for is kept, or it is compiled with less room for the types below
it than there was before it was marked. -/

variable {id : NodeId}

theorem Agree.of_room {x y : CompileM α} {t : CompileState}
    (h : Agree (RoomBelow r id ((t.mark id).ahead r).card) (Room r ((t.mark id).ahead r).card)
      x y)
    (hroom : ((t.mark id).ahead r).card < m) : Agree (· = t) (Room r m) x y :=
  h.imp (fun _ hs => hs ▸ Nat.le_refl _) fun s (hs : (s.ahead r).card ≤ _) =>
    hs.trans (Nat.le_of_lt hroom)

theorem objectWith_agree (henter : ∀ n < m, Descend r n e₁ e₂) :
    Agree (fun s => Room r m s ∧ (s.objects.find? id = none → ((s.mark id).ahead r).card < m))
      (Room r m) (objectWith r e₁ id) (objectWith r e₂ id) := by
  refine .get_bind fun t ht => ?_
  cases hkept : t.objects.find? id with
  | some c => exact .pure (fun s hs => hs ▸ ht.1) _
  | none =>
      have hroom := ht.2 hkept
      cases hn : r.node id with
      | object o =>
          refine Agree.of_room ?_ hroom
          exact (inProgress_agree (objectBody_agree (henter _ hroom) id) id).bind fun _ =>
            (keepObject_agree hn _).bind fun _ => .answer _
      | interface _ | inputObject _ | field _ | args _ | arg _ | inputField _ | implement _ =>
          exact .throw rfl

theorem interfaceWith_agree (henter : ∀ n < m, Descend r n e₁ e₂) :
    Agree
      (fun s => Room r m s ∧ (s.interfaces.find? id = none → ((s.mark id).ahead r).card < m))
      (Room r m) (interfaceWith r e₁ id) (interfaceWith r e₂ id) := by
  refine .get_bind fun t ht => ?_
  cases hkept : t.interfaces.find? id with
  | some c => exact .pure (fun s hs => hs ▸ ht.1) _
  | none =>
      have hroom := ht.2 hkept
      cases hn : r.node id with
      | interface o =>
          have hblind : Blind (RoomBelow r id ((t.mark id).ahead r).card) :=
            ⟨fun _ _ hs => hs, fun _ _ hs => hs, fun _ _ hs => hs⟩
          refine Agree.of_room ?_ hroom
          -- The implementers are entered when the interface is kept.
          exact (inProgress_agree (fields_agree (henter _ hroom) _ _ _) id).bind fun _ =>
            (interfaceDispatch_agree hblind id).bind fun _ =>
            (keepInterface_agree hn _).bind fun _ =>
            (Agree.lift (r.implementers_ends id)).bind fun _ =>
            (Agree.forM (henter _ hroom) _).bind fun _ => .answer _
      | object _ | inputObject _ | field _ | args _ | arg _ | inputField _ | implement _ =>
          exact .throw rfl

theorem inputObjectWith_agree (henter : ∀ n < m, Descend r n e₁ e₂) :
    Agree
      (fun s => Room r m s ∧ (s.inputObjects.find? id = none → ((s.mark id).ahead r).card < m))
      (Room r m) (inputObjectWith r e₁ id) (inputObjectWith r e₂ id) := by
  refine .get_bind fun t ht => ?_
  cases hkept : t.inputObjects.find? id with
  | some c => exact .pure (fun s hs => hs ▸ ht.1) _
  | none =>
      have hroom := ht.2 hkept
      cases hn : r.node id with
      | inputObject o =>
          refine Agree.of_room ?_ hroom
          exact (inProgress_agree (inputs_agree (henter _ hroom) _ _ _) id).bind fun _ =>
            (keepInputObject_agree hn _).bind fun _ => .answer _
      | object _ | interface _ | field _ | args _ | arg _ | inputField _ | implement _ =>
          exact .throw rfl

/-- A bound above the number of types to descend at is not reached. -/
theorem compileWithin_agree : ∀ {d₁ d₂ : Nat}, m < d₁ → m < d₂ →
    Descend r m (compileWithin r d₁) (compileWithin r d₂) := by
  induction m using Nat.strong_induction_on with
  | _ m ih =>
      intro d₁ d₂ h₁ h₂ id
      obtain ⟨d₁, rfl⟩ : ∃ d, d₁ = d + 1 := ⟨d₁ - 1, by omega⟩
      obtain ⟨d₂, rfl⟩ : ∃ d, d₂ = d + 1 := ⟨d₂ - 1, by omega⟩
      have henter : ∀ n < m, Descend r n (compileWithin r d₁) (compileWithin r d₂) :=
        fun n hn => ih n hn (by omega) (by omega)
      simp only [compileWithin]
      refine .get_bind fun t ht => ?_
      split
      · exact .pure (fun s hs => hs ▸ ht) _
      · next hnot =>
          have hmark : id ∉ t.inProgress := fun hmem => hnot (List.contains_iff_mem.mpr hmem)
          -- A type that is neither in progress nor kept was ahead until now.
          have hfree : (r.node id).isSchemaType = true → t.passes r id = false →
              ((t.mark id).ahead r).card < m := fun htype hfree =>
            Nat.lt_of_lt_of_le
              (card_ahead_mark_lt (Registry.lt_size_of_isSchemaType htype) hfree) ht
          have hroom : ∀ s, s = t → Room r m s := fun s hs => hs ▸ ht
          cases hn : r.node id with
          | object o =>
              refine (objectWith_agree henter).discard.imp (fun s hs => ⟨hroom s hs, ?_⟩)
                fun _ hs => hs
              subst hs
              exact fun hnone => hfree (by rw [hn]; rfl) (by simp [passes, hn, hnone, hmark])
          | interface o =>
              refine (interfaceWith_agree henter).discard.imp (fun s hs => ⟨hroom s hs, ?_⟩)
                fun _ hs => hs
              subst hs
              exact fun hnone => hfree (by rw [hn]; rfl) (by simp [passes, hn, hnone, hmark])
          | inputObject o =>
              refine (inputObjectWith_agree henter).discard.imp (fun s hs => ⟨hroom s hs, ?_⟩)
                fun _ hs => hs
              subst hs
              exact fun hnone => hfree (by rw [hn]; rfl) (by simp [passes, hn, hnone, hmark])
          | field _ | args _ | arg _ | inputField _ | implement _ => exact .throw rfl

end Compile

/-! ## Requests -/

open Compile

/-- A request to a compiler that descends by `enter`. -/
def Request.askBy (r : Registry) (enter : NodeId → CompileM Unit) : Request → CompileM Answer
  | .type l nonNull => .ref <$> link r enter l nonNull
  | .outputType l nonNull owner field => .ref <$> outputLink r enter l nonNull owner field
  | .inputType l nonNull owner field => .ref <$> inputLink r enter l nonNull owner field
  | .object id => (fun t => .type (.object t)) <$> objectWith r enter id
  | .interface id => (fun t => .type (.interface t)) <$> interfaceWith r enter id
  | .inputObject id => (fun t => .type (.inputObject t)) <$> inputObjectWith r enter id
  | .named l => .type <$> do
    let c ← link r enter l false
    let name := c.typeRef.render
    if !c.typeRef.isNamed then throw (.notNamedType name)
    match keptDefinition r l name (← get) with
    | some t => return t
    | none => throw (.typeNotFound name)
  | .fieldMap owner ids => .fields <$> fields r enter owner ids ∅

theorem Request.ask_eq_askBy (r : Registry) (q : Request) : q.ask r = q.askBy r (enter r) := by
  cases q <;> rfl

/-- Between requests there is always room: there cannot be more types than nodes. -/
theorem Request.askBy_agree {r : Registry} {e₁ e₂ : NodeId → CompileM Unit}
    (henter : ∀ n < r.size + 1, Descend r n e₁ e₂) (q : Request) :
    Agree (fun _ => True) (fun _ => True) (q.askBy r e₁) (q.askBy r e₂) := by
  have hall : Descend r r.size e₁ e₂ := henter _ (Nat.lt_succ_self _)
  have hroom : ∀ s, True → CompileState.Room r r.size s := fun s _ => room_size s
  have hmore : ∀ s id, CompileState.Room r (r.size + 1) s ∧
      ((s.mark id).ahead r).card < r.size + 1 := fun s id =>
    ⟨Nat.le_succ_of_le (room_size s), Nat.lt_succ_of_le (room_size _)⟩
  cases q with
  | type l nonNull =>
      exact ((link_agree blind_room hall l nonNull).imp hroom fun _ _ => trivial).map _
  | outputType l nonNull owner field =>
      exact ((outputLink_agree blind_room hall l nonNull owner field).imp hroom
        fun _ _ => trivial).map _
  | inputType l nonNull owner field =>
      exact ((inputLink_agree blind_room hall l nonNull owner field).imp hroom
        fun _ _ => trivial).map _
  | object id =>
      exact ((objectWith_agree henter).imp (fun s _ => (hmore s id).imp_right fun h _ => h)
        fun _ _ => trivial).map _
  | interface id =>
      exact ((interfaceWith_agree henter).imp (fun s _ => (hmore s id).imp_right fun h _ => h)
        fun _ _ => trivial).map _
  | inputObject id =>
      exact ((inputObjectWith_agree henter).imp
        (fun s _ => (hmore s id).imp_right fun h _ => h) fun _ _ => trivial).map _
  | named l =>
      refine Agree.map _ (((link_agree blind_room hall l false).imp hroom
        fun _ _ => trivial).bind fun c => ?_)
      dsimp only
      split
      · exact .throw rfl
      · refine .get_bind fun t _ => ?_
        split
        · exact .pure (fun _ _ => trivial) _
        · exact .throw rfl
  | fieldMap owner ids =>
      exact ((fields_agree hall owner ids ∅).imp hroom fun _ _ => trivial).map _

/-- Every request is answered or refused, in whatever state it finds the compiler, and it
is not a bound that ends it: neither the depth to which types and shapes are followed nor
the length of chains makes a difference once it exceeds what is declared. -/
theorem Request.ask_halts (r : Registry) (q : Request) (s : CompileState) :
    ((∃ a s', q.ask r s = .ok a s') ∨
      ∃ e s', q.ask r s = .error e s' ∧ e.isEndless = false) ∧
    (∀ depth, r.size < depth → q.askBy r (compileWithin r depth) s = q.ask r s) ∧
    (∀ depth id, r.size < depth → inputShapeWithin r depth id s = inputShape r id s) ∧
    ∀ more id, r.chainFrom (r.types.size + r.args.size + more) [id] id = r.chain id := by
  have hagree : ∀ depth, r.size < depth →
      Agree (fun _ => True) (fun _ => True) (q.askBy r (compileWithin r depth)) (q.ask r) := by
    intro depth hdepth
    rw [ask_eq_askBy]
    exact askBy_agree (fun n hn => compileWithin_agree (by omega) hn) q
  refine ⟨?_, fun depth hdepth => (hagree depth hdepth s trivial).1, ?_,
    Registry.chainFrom_eq_chain⟩
  · obtain ⟨hsame, herror, -⟩ := hagree (r.size + 1) (Nat.lt_succ_self _) s trivial
    rw [hsame] at herror
    cases hrun : q.ask r s with
    | ok a s' => exact Or.inl ⟨a, s', rfl⟩
    | error e s' => exact Or.inr ⟨e, s', rfl, herror e s' hrun⟩
  · intro depth id hdepth
    have hshapes := inputShapeWithin_agree (r := r) (n := r.size) id hdepth
      (Nat.lt_succ_self r.size)
    exact (hshapes s ⟨card_undone_le, room_size s⟩).1

end SchemaGraph
