import SchemaGraph.Compile.Requests
import SchemaGraph.Proofs.Compile.Members
import SchemaGraph.Proofs.Compile.Types
import SchemaGraph.Proofs.Declared.WellFormed
import SchemaGraph.Proofs.Input.Tables

/-!
# Requests in any order

A compiler answers one request after the other, and what it kept for one it
uses for the next. Between requests nothing is in progress and nothing is
promised, so the invariant is at its strongest: every cache holds what the
registry means and is closed. An answer is then the registry's own, whatever was
asked before, and two compilers that both answer give the same answer.

The exception is the definition behind a type given on the spot. Of two
different ones under one name the compiler keeps the one it meets first, so what
the name means to it depends on the order.
-/

set_option autoImplicit false

namespace SchemaGraph

open CompileState

variable {r : Registry} {A : NodeId → Prop} {s s' t : CompileState}

/-! ## Between requests -/

/-- A compiler between requests: nothing is promised, nothing in progress. -/
structure CompileState.Settled (r : Registry) (A : NodeId → Prop) (s : CompileState) :
    Prop where
  sound : Sound r A (fun _ => False) s
  idle : s.inProgress = []

namespace CompileState.Settled

theorem start (r : Registry) (A : NodeId → Prop) : Settled r A {} :=
  ⟨Sound.start r A _, rfl⟩

theorem advance (h : Settled r A s) (hadv : Advances r A (fun _ => False) s s') :
    Settled r A s' := ⟨hadv.sound, hadv.grows.inProgress.trans h.idle⟩

theorem idle_of_mem (h : Settled r A s) {P : Prop} {id : NodeId}
    (hid : id ∈ s.inProgress) : P := by
  rw [h.idle] at hid
  cases hid

theorem knows (_ : Settled r A s) {m : Mention} (hm : s.Expects (fun _ => False) m) :
    s.Knows m := by
  rcases hm with hknown | ⟨_, hfalse, -⟩
  · exact hknown
  · exact hfalse.elim

theorem keeps (h : Settled r A s) {id : NodeId} (hid : s.Knows (.node id)) :
    s.Keeps id := by
  rcases hid with hmarked | hkept
  · exact h.idle_of_mem hmarked
  · exact hkept

/-- What a kept type leads to is known. -/
theorem leads (h : Settled r A s) {id : NodeId} (hid : s.Keeps id) {m : Mention}
    (hm : r.Leads id m) : s.Knows m := h.knows (h.sound.leads hid hm)

end CompileState.Settled

namespace Compile

theorem object_ok (hclosed : Closed r A) {id : NodeId} {c : CompiledObject} (hA : A id)
    (hs : s.Settled r A) (h : object r id s = .ok c s') :
    Advances r A (fun _ => False) s s' ∧ Meaning.object r id = .ok c ∧ s'.Keeps id :=
  objectWith_ok (enter_ok hclosed) hclosed hA (fun hid => hs.idle_of_mem hid) hs.sound h

theorem interface_ok (hclosed : Closed r A) {id : NodeId} {c : CompiledInterface}
    (hA : A id) (hs : s.Settled r A) (h : interface r id s = .ok c s') :
    Advances r A (fun _ => False) s s' ∧ Meaning.interface r id = .ok c ∧ s'.Keeps id :=
  interfaceWith_ok (enter_ok hclosed) hclosed hA (fun hid => hs.idle_of_mem hid) hs.sound h

theorem inputObject_ok (hclosed : Closed r A) {id : NodeId} {c : CompiledInputObject}
    (hA : A id) (hs : s.Settled r A) (h : inputObject r id s = .ok c s') :
    Advances r A (fun _ => False) s s' ∧ Meaning.inputObject r id = .ok c ∧ s'.Keeps id :=
  inputObjectWith_ok (enter_ok hclosed) hclosed hA (fun hid => hs.idle_of_mem hid) hs.sound h

/-- What is kept for a declared type is its meaning. -/
theorem keptDefinition_node (hs : s.Settled r A) {id : NodeId} {name : String}
    {t : CompiledType} (h : keptDefinition r (.node id) name s = some t) :
    Meaning.type r id = .ok t := by
  unfold keptDefinition at h
  cases hn : r.node id with
  | object n =>
      simp only [hn, Option.map_eq_some_iff] at h
      obtain ⟨c, hc, rfl⟩ := h
      exact Meaning.type_of_object (hs.sound.objects hc)
  | interface n =>
      simp only [hn, Option.map_eq_some_iff] at h
      obtain ⟨c, hc, rfl⟩ := h
      exact Meaning.type_of_interface (hs.sound.interfaces hc)
  | inputObject n =>
      simp only [hn, Option.map_eq_some_iff] at h
      obtain ⟨c, hc, rfl⟩ := h
      exact Meaning.type_of_inputObject (hs.sound.inputObjects hc)
  | field _ | args _ | arg _ | inputField _ | implement _ =>
      simp only [hn] at h
      cases h

/-- A definition that is asked for by name is what is kept for it at the end. -/
theorem namedType_ok (hclosed : Closed r A) {l : Link} {c : CompiledType}
    (hA : ∀ id, l.Mentions r (.node id) → A id) (hs : s.Settled r A)
    (h : namedType r l s = .ok c s') :
    Advances r A (fun _ => False) s s' ∧
      (∃ name, keptDefinition r l name s' = some c) ∧ ∀ m, l.Mentions r m → s'.Knows m := by
  simp only [namedType, type, bind_eq_ok] at h
  obtain ⟨ref, s₁, hrun, h⟩ := h
  obtain ⟨hadv, -, hexp⟩ := link_ok (enter_ok hclosed) hA hs.sound hrun
  split at h
  · obtain ⟨_, _, hthrow, -⟩ := bind_eq_ok.mp h
    exact absurd hthrow throw_ne_ok
  · simp only [bind_eq_ok, get_eq_ok] at h
    obtain ⟨_, _, ⟨rfl, rfl⟩, h⟩ := h
    cases hkept : keptDefinition r l ref.typeRef.render s₁ with
    | none =>
        simp only [hkept] at h
        exact absurd h throw_ne_ok
    | some c' =>
        simp only [hkept] at h
        obtain ⟨rfl, rfl⟩ := pure_eq_ok.mp h
        exact ⟨hadv, ⟨_, hkept⟩, fun m hm => (hs.advance hadv).knows (hexp m hm)⟩

end Compile

/-! ## Requests -/

/-- What can be asked of a compiler. -/
inductive Request where
  | type (l : Link) (nonNull : Bool)
  | outputType (l : Link) (nonNull : Bool) (owner field : String)
  | inputType (l : Link) (nonNull : Bool) (owner field : String)
  | object (id : NodeId)
  | interface (id : NodeId)
  | inputObject (id : NodeId)
  | named (l : Link)
  | fieldMap (owner : String) (ids : List NodeId)

inductive Answer where
  | ref (c : CompiledRef)
  | type (t : CompiledType)
  | fields (m : OrderedMap String CompiledField)

def Answer.outputFields : Answer → List CompiledField
  | .ref _ => []
  | .type t => t.outputFields
  | .fields m => m.values

namespace Request

/-- Put a request to a compiler. -/
def ask (r : Registry) : Request → CompileM Answer
  | .type l nonNull => .ref <$> Compile.type r l nonNull
  | .outputType l nonNull owner field =>
    .ref <$> Compile.outputType r l nonNull owner field
  | .inputType l nonNull owner field => .ref <$> Compile.inputType r l nonNull owner field
  | .object id => (fun t => .type (.object t)) <$> Compile.object r id
  | .interface id => (fun t => .type (.interface t)) <$> Compile.interface r id
  | .inputObject id => (fun t => .type (.inputObject t)) <$> Compile.inputObject r id
  | .named l => .type <$> Compile.namedType r l
  | .fieldMap owner ids => .fields <$> Compile.fieldMap r owner ids

/-- What the registry has to say to a request. It has nothing to say about the
definition of a type that is given on the spot. -/
def meaning? (r : Registry) : Request → Option (Except SchemaError Answer)
  | .type l nonNull => some ((Meaning.link r l nonNull).map .ref)
  | .outputType l nonNull owner field =>
    some ((Meaning.output r l nonNull owner field).map .ref)
  | .inputType l nonNull owner field =>
    some ((Meaning.input r l nonNull owner field).map .ref)
  | .object id => some ((Meaning.object r id).map fun t => .type (.object t))
  | .interface id => some ((Meaning.interface r id).map fun t => .type (.interface t))
  | .inputObject id => some ((Meaning.inputObject r id).map fun t => .type (.inputObject t))
  | .named (.node id) => some ((Meaning.type r id).map .type)
  | .named (.given _) => none
  | .fieldMap owner ids => some ((Meaning.fields r owner ids ∅).map .fields)

end Request

/-- The compiler knows every shape by which the arguments of an answer are
materialized. -/
def Answer.Materializes (a : Answer) (s : CompileState) : Prop :=
  ∀ f ∈ a.outputFields, ∀ j ∈ f.resolver.arguments.inputs, s.shapes.contains j = true

theorem Answer.materializes_of_no_fields {a : Answer} (h : a.outputFields = []) :
    a.Materializes s := by
  intro f hf
  rw [h] at hf
  cases hf

/-- A kept type has met the shapes of its arguments. -/
theorem CompileState.Settled.materializes (hs : s.Settled r A) {id : NodeId}
    {c : CompiledType} (hid : s.Keeps id) (hc : Meaning.type r id = .ok c) :
    (Answer.type c).Materializes s := by
  intro f hf j hj
  obtain ⟨i, hof, hleads⟩ := Meaning.mem_outputFields hc hf
  exact hs.leads hid (hleads _ (hof.shapes j hj))

namespace Request

/-- Every node may be asked for. -/
theorem closed_true (r : Registry) : Compile.Closed r fun _ => True := fun _ _ => trivial

theorem meaning_eq_ok {α : Type} {y : Except SchemaError α} {f : α → Answer} {c : α}
    (hc : y = .ok c) (hm : (f c).Materializes s) {x : Except SchemaError Answer}
    (hx : some (y.map f) = some x) : x = .ok (f c) ∧ (f c).Materializes s := by
  obtain rfl := Option.some.inj hx
  exact ⟨Meaning.map_eq_ok.mpr ⟨c, hc, rfl⟩, hm⟩

theorem exists_meaning (r : Registry) {q : Request} (hq : ∀ e, q ≠ .named (.given e)) :
    ∃ x, q.meaning? r = some x := by
  cases q with
  | named l =>
      cases l with
      | node id => exact ⟨_, rfl⟩
      | given e => exact absurd rfl (hq e)
  | type _ _ | outputType _ _ _ _ | inputType _ _ _ _ | object _ | interface _
  | inputObject _ | fieldMap _ _ => exact ⟨_, rfl⟩

/-- A request that is answered leaves the compiler between requests again, and
the answer is the registry's. -/
theorem ask_ok {q : Request} {a : Answer} (hs : s.Settled r fun _ => True)
    (h : q.ask r s = .ok a s') :
    Advances r (fun _ => True) (fun _ => False) s s' ∧
      ∀ x, q.meaning? r = some x → x = .ok a ∧ a.Materializes s' := by
  have henter : Compile.Enters r (fun _ => True) (Compile.enter r) :=
    Compile.enter_ok (closed_true r)
  cases q with
  | type l nonNull =>
      obtain ⟨c, hrun, rfl⟩ := Compile.map_eq_ok.mp h
      obtain ⟨hadv, hmeaning, -⟩ :=
        Compile.link_ok henter (fun _ _ => trivial) hs.sound hrun
      have hknown : (Answer.ref c).Materializes s' := Answer.materializes_of_no_fields rfl
      exact ⟨hadv, fun x => meaning_eq_ok hmeaning hknown⟩
  | outputType l nonNull owner field =>
      obtain ⟨c, hrun, rfl⟩ := Compile.map_eq_ok.mp h
      obtain ⟨hadv, hmeaning, -⟩ :=
        Compile.outputLink_ok henter (fun _ _ => trivial) hs.sound hrun
      have hknown : (Answer.ref c).Materializes s' := Answer.materializes_of_no_fields rfl
      exact ⟨hadv, fun x => meaning_eq_ok hmeaning hknown⟩
  | inputType l nonNull owner field =>
      obtain ⟨c, hrun, rfl⟩ := Compile.map_eq_ok.mp h
      obtain ⟨hadv, hmeaning, -⟩ :=
        Compile.inputLink_ok henter (fun _ _ => trivial) hs.sound hrun
      have hknown : (Answer.ref c).Materializes s' := Answer.materializes_of_no_fields rfl
      exact ⟨hadv, fun x => meaning_eq_ok hmeaning hknown⟩
  | object id =>
      obtain ⟨c, hrun, rfl⟩ := Compile.map_eq_ok.mp h
      obtain ⟨hadv, hmeaning, hkept⟩ := Compile.object_ok (closed_true r) trivial hs hrun
      have hknown := (hs.advance hadv).materializes hkept (Meaning.type_of_object hmeaning)
      exact ⟨hadv, fun x => meaning_eq_ok hmeaning hknown⟩
  | interface id =>
      obtain ⟨c, hrun, rfl⟩ := Compile.map_eq_ok.mp h
      obtain ⟨hadv, hmeaning, hkept⟩ := Compile.interface_ok (closed_true r) trivial hs hrun
      have hknown := (hs.advance hadv).materializes hkept (Meaning.type_of_interface hmeaning)
      exact ⟨hadv, fun x => meaning_eq_ok hmeaning hknown⟩
  | inputObject id =>
      obtain ⟨c, hrun, rfl⟩ := Compile.map_eq_ok.mp h
      obtain ⟨hadv, hmeaning, -⟩ := Compile.inputObject_ok (closed_true r) trivial hs hrun
      have hknown : (Answer.type (.inputObject c)).Materializes s' := Answer.materializes_of_no_fields rfl
      exact ⟨hadv, fun x => meaning_eq_ok hmeaning hknown⟩
  | named l =>
      obtain ⟨c, hrun, rfl⟩ := Compile.map_eq_ok.mp h
      obtain ⟨hadv, ⟨name, hdef⟩, hknown⟩ :=
        Compile.namedType_ok (closed_true r) (fun _ _ => trivial) hs hrun
      refine ⟨hadv, fun x hx => ?_⟩
      cases l with
      | node id =>
          have hs' := hs.advance hadv
          have hmeaning := Compile.keptDefinition_node hs' hdef
          exact meaning_eq_ok hmeaning
            (hs'.materializes (hs'.keeps (hknown _ rfl)) hmeaning) hx
      | given e => cases hx
  | fieldMap owner ids =>
      obtain ⟨m, hrun, rfl⟩ := Compile.map_eq_ok.mp h
      obtain ⟨hadv, hmeaning, hexp⟩ :=
        Compile.fields_ok henter (fun _ _ => trivial) hs.sound hrun
      refine ⟨hadv, fun x => meaning_eq_ok hmeaning ?_⟩
      intro f hf j hj
      rcases Meaning.mem_fields hmeaning hf with hmem | ⟨i, hi, hof⟩
      · cases hmem
      · exact (hs.advance hadv).knows (hexp _ ⟨i, hi, hof.shapes j hj⟩)

end Request

/-! ## Runs of requests -/

namespace CompileState

/-- One request, answered. -/
def Asks (r : Registry) (s s' : CompileState) : Prop :=
  ∃ (q : Request) (a : Answer), q.ask r s = .ok a s'

/-- A compiler reaches a state by requests that are all answered. -/
def Reaches (r : Registry) : CompileState → CompileState → Prop :=
  Relation.ReflTransGen (Asks r)

theorem Asks.advance (h : Asks r s s') (hs : s.Settled r fun _ => True) :
    Advances r (fun _ => True) (fun _ => False) s s' := by
  obtain ⟨q, a, hrun⟩ := h
  exact (Request.ask_ok hs hrun).1

theorem Reaches.advance (h : Reaches r s s') (hs : s.Settled r fun _ => True) :
    Advances r (fun _ => True) (fun _ => False) s s' := by
  induction h with
  | refl => exact Advances.refl hs.sound
  | tail _ hask ih => exact ih.trans (hask.advance (hs.advance ih))

/-- Whatever a new compiler has been asked, it is between requests. -/
theorem Reaches.settled (h : Reaches r {} s) : s.Settled r fun _ => True :=
  (Settled.start r _).advance (h.advance (Settled.start r _))

end CompileState

/-- Two compilers of one registry, whatever they were asked before, give the
same answer to a request that both answer; a new compiler is one of them. The
fields of the answer make the same of their raw arguments under both, whatever
the compilers are asked afterwards. -/
theorem Request.answers_agree {q : Request} {s₁ s₂ t₁ t₂ u₁ u₂ : CompileState}
    {a₁ a₂ : Answer} (hq : ∀ e, q ≠ .named (.given e)) (hs₁ : Reaches r {} s₁)
    (hs₂ : Reaches r {} s₂) (h₁ : q.ask r s₁ = .ok a₁ t₁) (h₂ : q.ask r s₂ = .ok a₂ t₂)
    (hu₁ : Reaches r t₁ u₁) (hu₂ : Reaches r t₂ u₂) :
    a₁ = a₂ ∧ ∀ f ∈ a₁.outputFields, ∀ raw,
      f.resolver.arguments.materialize u₁.shapes raw
        = f.resolver.arguments.materialize u₂.shapes raw := by
  obtain ⟨x, hx⟩ : ∃ x, q.meaning? r = some x := by
    cases q with
    | named l =>
        cases l with
        | node id => exact ⟨_, rfl⟩
        | given e => exact absurd rfl (hq e)
    | type _ _ | outputType _ _ _ _ | inputType _ _ _ _ | object _ | interface _
    | inputObject _ | fieldMap _ _ => exact ⟨_, rfl⟩
  obtain ⟨hadv₁, hanswer₁⟩ := ask_ok hs₁.settled h₁
  obtain ⟨hadv₂, hanswer₂⟩ := ask_ok hs₂.settled h₂
  obtain ⟨rfl, hknown₁⟩ := hanswer₁ x hx
  obtain ⟨heq, hknown₂⟩ := hanswer₂ _ hx
  obtain rfl : a₁ = a₂ := Except.ok.inj heq
  have hlater₁ := hu₁.advance (hs₁.settled.advance hadv₁)
  have hlater₂ := hu₂.advance (hs₂.settled.advance hadv₂)
  refine ⟨rfl, fun f hf raw => ?_⟩
  refine ArgumentMapping.materialize_congr hlater₁.sound.shapes hlater₂.sound.shapes ?_
  intro j hj
  exact ⟨hlater₁.grows.shapes (hknown₁ f hf j hj), hlater₂.grows.shapes (hknown₂ f hf j hj)⟩

/-! ### A registry of people

Types that refer to themselves and to each other: a person has friends, who can
be found by a filter that contains filters; a member is a person by
inheritance, and so is a being. -/

namespace People

def being : HostType := ⟨"Being"⟩

def filter : HostType := ⟨"Filter"⟩

def person : HostType := ⟨"Person"⟩

def member : HostType := ⟨"Member"⟩

def query : HostType := ⟨"Query"⟩

def registry : Registry := .ofDeclarations [
  .field being { name := "name", type? := some .string },
  .interface being {},
  .inputField filter { name := "text", type? := some .string },
  .inputField filter { name := "also", type? := some (.nullable (.ref filter)) },
  .inputObject ⟨filter, fun j => .ok ⟨filter, j, []⟩⟩ {},
  .implement person being,
  .field person
    { name := "friends", type? := some (.list (.ref person)), arg? := some (.ref filter) },
  .arg person "friends" { name := "filter" },
  .object person {},
  .object member { extends? := some ⟨member, person⟩ },
  .field query { name := "beings", type? := some (.list (.ref being)) },
  .field query { name := "found", type? := some (.union ⟨"Found", none, [person]⟩) },
  .object query {}]

end People

/-- The state after a request. -/
def Request.after (r : Registry) (q : Request) (s : CompileState) : CompileState :=
  match q.ask r s with
  | .ok _ s' => s'
  | .error _ s' => s'

def Request.isAnswered (r : Registry) (q : Request) (s : CompileState) : Bool :=
  match q.ask r s with
  | .ok _ _ => true
  | .error _ _ => false

theorem Request.ask_of_isAnswered {q : Request} (h : q.isAnswered r s = true) :
    ∃ a, q.ask r s = .ok a (q.after r s) := by
  unfold isAnswered at h
  unfold after
  cases hrun : q.ask r s with
  | ok a s' => exact ⟨a, rfl⟩
  | error e s' => simp [hrun] at h

/-- A compiler that came upon the member by way of the filter and the beings. -/
def People.warm : CompileState :=
  (Request.interface 1).after registry ((Request.inputObject 4).after registry {})

/-- It answers about the member what a new compiler answers. -/
theorem People.member_agrees : ∃ a t₁ t₂,
    (Request.object 9).ask registry {} = .ok a t₁ ∧
      (Request.object 9).ask registry warm = .ok a t₂ ∧
      ∀ f ∈ a.outputFields, ∀ raw,
        f.resolver.arguments.materialize t₁.shapes raw
          = f.resolver.arguments.materialize t₂.shapes raw := by
  obtain ⟨a, hcold⟩ := Request.ask_of_isAnswered
    (show (Request.object 9).isAnswered registry {} = true by decide +kernel)
  obtain ⟨_, hfilter⟩ := Request.ask_of_isAnswered
    (show (Request.inputObject 4).isAnswered registry {} = true by decide +kernel)
  obtain ⟨_, hbeing⟩ := Request.ask_of_isAnswered
    (show (Request.interface 1).isAnswered registry
      ((Request.inputObject 4).after registry {}) = true by decide +kernel)
  obtain ⟨a', hwarm⟩ := Request.ask_of_isAnswered
    (show (Request.object 9).isAnswered registry warm = true by decide +kernel)
  have hreaches : CompileState.Reaches registry {} warm :=
    (Relation.ReflTransGen.single ⟨_, _, hfilter⟩).tail ⟨_, _, hbeing⟩
  obtain ⟨rfl, hargs⟩ := Request.answers_agree (by simp) .refl hreaches hcold hwarm
    .refl .refl
  exact ⟨a, _, _, hcold, hwarm, hargs⟩

end SchemaGraph
