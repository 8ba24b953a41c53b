import SchemaGraph.Proofs.Compile.Gathering
import SchemaGraph.Proofs.Compile.Requests

/-!
# Unions of one name

A union that finds its name taken by one with other members is refused, and so is
one that finds a scalar or an enum there. But it looks only once, before its
members are compiled. Whatever is kept under the name while it waits for them it
replaces without a word.

So after a run of requests that are all answered the unions the requests were
for are registered as they are, and so are the ones that the compiled types use,
with this exception: the union registered may have a member that leads to the type
which uses the other.
-/

set_option autoImplicit false

namespace SchemaGraph

open CompileState

variable {r : Registry} {N : NodeId → Prop} {s s' : CompileState}

/-! ## Requests -/

namespace Request

/-- What a request uses by itself, in the type or the fields it is for. -/
def Uses (r : Registry) : Request → GivenType → Prop
  | .type l _, g => l.Uses g
  | .outputType l _ _ _, g => l.Uses g
  | .inputType l _ _ _, g => l.Uses g
  | .object _, _ => False
  | .interface _, _ => False
  | .inputObject _, _ => False
  | .named l, g => l.Uses g
  | .fieldMap _ ids, g => ∃ i ∈ ids, r.FieldUses i g

/-- The declared types that a request is for. -/
def Targets (r : Registry) : Request → NodeId → Prop
  | .type l _, id => l.Mentions r (.node id)
  | .outputType l _ _ _, id => l.Mentions r (.node id)
  | .inputType l _ _ _, id => l.Mentions r (.node id)
  | .object o, id => id = o
  | .interface o, id => id = o
  | .inputObject o, id => id = o
  | .named l, id => l.Mentions r (.node id)
  | .fieldMap _ ids, id => ∃ i ∈ ids, r.FieldMentions i (.node id)

/-- The type a request is for, if it is for one that may be given on the spot. -/
def link? : Request → Option Link
  | .type l _ => some l
  | .outputType l _ _ _ => some l
  | .inputType l _ _ _ => some l
  | .named l => some l
  | _ => none

end Request

namespace Compile

theorem namedType_gather (hclosed : Closed r N) {l : Link}
    (hN : ∀ id, l.Mentions r (.node id) → N id) : Gather r N l.Uses (namedType r l) := by
  refine (link_gather (enter_gather r) hclosed false hN).followed fun c => ?_
  dsimp only
  split
  · exact .throw_bind
  · refine Gather.get.before fun s => ?_
    split
    · exact .pure _
    · exact .throw

theorem ask_gather (hclosed : Closed r N) {q : Request}
    (hN : ∀ id, q.Targets r id → N id) : Gather r N (q.Uses r) (q.ask r) := by
  have henter : Gathering r (Compile.enter r) := enter_gather r
  cases q with
  | type l nonNull => exact (link_gather henter hclosed nonNull hN).map _
  | outputType l nonNull owner field =>
      exact (outputLink_gather henter hclosed nonNull owner field hN).map _
  | inputType l nonNull owner field =>
      exact (inputLink_gather henter hclosed nonNull owner field hN).map _
  | object id => exact (objectWith_gather henter hclosed (hN id rfl)).map _
  | interface id => exact (interfaceWith_gather henter hclosed (hN id rfl)).map _
  | inputObject id => exact (inputObjectWith_gather henter hclosed (hN id rfl)).map _
  | named l => exact (namedType_gather hclosed hN).map _
  | fieldMap owner ids => exact (fields_gather henter hclosed owner ∅ hN).map _

end Compile

/-! ## Runs -/

namespace CompileState

/-- A new compiler has answered some requests, the latest first. -/
inductive Answered (r : Registry) : List Request → CompileState → Prop
  | start : Answered r [] {}
  | next {q : Request} {qs : List Request} {a : Answer} {s s' : CompileState} :
      Answered r qs s → q.ask r s = .ok a s' → Answered r (q :: qs) s'

variable {qs : List Request}

theorem Answered.reaches (h : s.Answered r qs) : Reaches r {} s := by
  induction h with
  | start => exact .refl
  | next _ hask ih => exact ih.tail ⟨_, _, hask⟩

theorem unionsStand_start (r : Registry) : UnionsStand r {} := by
  rintro id d (h | h | h) <;> cases h

/-- A run gathers what its requests use. -/
theorem Answered.gathers (hclosed : Compile.Closed r N) (h : s.Answered r qs)
    (hN : ∀ q ∈ qs, ∀ id, q.Targets r id → N id) :
    Gathers r N (fun g => ∃ q ∈ qs, q.Uses r g) {} s := by
  induction h with
  | start => exact .refl (unionsStand_start r) fun d hd => by simp at hd
  | next _ hask ih =>
      have hold := ih fun q hq => hN q (by simp [hq])
      have hnew := Compile.ask_gather hclosed (hN _ (by simp)) _ _ _ hold.stands hask
      refine (hold.trans hnew).congr fun g => ?_
      simp [or_comm]

/-- The union registered under the name of `d` has exactly the members of `d`. -/
def Registers (r : Registry) (s : CompileState) (d : UnionDef) : Prop :=
  ∃ u description, s.given.find? d.name = some (.union u) ∧
    Meaning.union r ⟨d.name, description, d.members⟩ = .ok u ∧
    s.unionMembers.find? d.name = some d.members

/-- Under one name there is one list of members. -/
theorem Registers.members_eq {d d' : UnionDef} (h : s.Registers r d) (h' : s.Registers r d')
    (hname : d.name = d'.name) : d.members = d'.members := by
  obtain ⟨_, _, -, -, hmembers⟩ := h
  obtain ⟨_, _, -, -, hmembers'⟩ := h'
  rw [hname, hmembers'] at hmembers
  exact (Option.some.inj hmembers).symm

/-- What is kept under the name is the union it is kept for. -/
theorem registers_iff {A W : NodeId → Prop} (hs : Sound r A W s) {d : UnionDef} :
    s.Registers r d ↔ s.Holds d := by
  constructor
  · rintro ⟨u, description, hu, -, hmembers⟩
    exact ⟨⟨u, hu⟩, hmembers⟩
  · rintro ⟨⟨u, hu⟩, hmembers⟩
    obtain ⟨⟨name, description, members⟩, hname, hmembers', hmeaning, -⟩ := hs.unions hu
    obtain rfl : members = d.members := Option.some.inj (hmembers'.symm.trans hmembers)
    obtain rfl : name = d.name := hname
    exact ⟨u, description, hu, hmeaning, hmembers⟩

end CompileState

/-! ## Collisions that are noticed -/

namespace Compile

variable {enter : NodeId → CompileM Unit} {d : UnionDef}

/-- A union whose name is taken by anything but itself is refused on the spot. -/
theorem unionDispatch_collides (htaken : s.given.contains d.name = true)
    (hother : ¬ s.Holds d) :
    unionDispatch r enter d s = .error (.nameCollision d.name) s := by
  obtain ⟨t, ht⟩ := OrderedMap.contains_iff.mp htaken
  simp only [unionDispatch, get_bind, ht]
  cases t with
  | union u =>
      dsimp only
      rw [if_neg fun hmembers => hother ⟨⟨u, ht⟩, hmembers⟩]
      rfl
  | object _ | interface _ | inputObject _ | enum _ | scalar _ => rfl

theorem expr_collides (htaken : s.given.contains d.name = true) (hother : ¬ s.Holds d)
    {t : TypeExpr} : ∀ nonNull, t.Uses (.union d) →
      expr r enter nonNull t s = .error (.nameCollision d.name) s := by
  induction t with
  | ref t => exact fun _ h => h.elim
  | scalar d' => exact fun _ h => by cases h.2
  | enum d' => exact fun _ h => by cases h
  | union d' =>
      intro nonNull h
      cases h
      exact bind_eq_error (unionDispatch_collides htaken hother)
  | list item ih => exact fun nonNull h => bind_eq_error (ih true h)
  | nullable inner ih => exact fun nonNull h => bind_eq_error (ih false h)

theorem link_collides (htaken : s.given.contains d.name = true) (hother : ¬ s.Holds d)
    {l : Link} (nonNull : Bool) (h : l.Uses (.union d)) :
    link r enter l nonNull s = .error (.nameCollision d.name) s := by
  cases l with
  | node id => exact h.elim
  | given t => exact expr_collides htaken hother nonNull h

theorem ask_collides (htaken : s.given.contains d.name = true) (hother : ¬ s.Holds d)
    {q : Request} {l : Link} (hq : q.link? = some l) (h : l.Uses (.union d)) :
    q.ask r s = .error (.nameCollision d.name) s := by
  cases q with
  | type l' nonNull =>
      cases hq
      exact map_eq_error (link_collides htaken hother nonNull h)
  | outputType l' nonNull owner field =>
      cases hq
      exact map_eq_error (bind_eq_error (link_collides htaken hother nonNull h))
  | inputType l' nonNull owner field =>
      cases hq
      exact map_eq_error (bind_eq_error (link_collides htaken hother nonNull h))
  | named l' =>
      cases hq
      exact map_eq_error (bind_eq_error (link_collides htaken hother false h))
  | object _ | interface _ | inputObject _ | fieldMap _ _ => cases hq

end Compile

/-- After a run of requests that are all answered, a union that a request was for
is registered with its members, and one that a compiled type uses is too, unless
a member of the one registered leads to that type. A request for a union whose
name is registered for anything else fails with the collision. -/
theorem CompileState.Answered.unions_registered {qs : List Request} (h : s.Answered r qs) :
    (∀ q ∈ qs, ∀ d, q.Uses r (.union d) → s.Registers r d) ∧
      (∀ id d, s.Keeps id → r.Uses id (.union d) → s.Registers r d ∨
        ∃ d', d'.name = d.name ∧ s.Registers r d' ∧ d'.LeadsTo r id) ∧
      ∀ (q : Request) (l : Link) (d : UnionDef), q.link? = some l → l.Uses (.union d) →
        s.given.contains d.name = true → ¬ s.Registers r d →
        q.ask r s = .error (.nameCollision d.name) s := by
  have hsound := h.reaches.settled.sound
  have hgathers := h.gathers (Request.closed_true r) fun _ _ _ _ => trivial
  refine ⟨fun q hq d hd => ?_, fun id d hid hd => ?_, fun q l d hq hl htaken hother => ?_⟩
  · exact (registers_iff hsound).mpr (hgathers.holds ⟨q, hq, hd⟩)
  · refine (hgathers.stands hid hd).imp (registers_iff hsound).mpr ?_
    rintro ⟨d', hname, hholds, hleads⟩
    exact ⟨d', hname, (registers_iff hsound).mpr hholds, hleads⟩
  · exact Compile.ask_collides htaken (mt (registers_iff hsound).mpr hother) hq hl

/-! ### One union inside another

The outer union has the shelves as its member, the shelves answer the inner union,
and both go by the same name. -/

namespace Nested

def book : HostType := ⟨"Book"⟩

def shelf : HostType := ⟨"Shelf"⟩

def query : HostType := ⟨"Query"⟩

def inner : UnionDef := ⟨"Found", none, [book]⟩

def outer : UnionDef := ⟨"Found", none, [shelf]⟩

/-- The types are nodes 1, 3 and 5. -/
def registry : Registry := .ofDeclarations [
  .field book { name := "title", type? := some .string },
  .object book {},
  .field shelf { name := "inner", type? := some (.union inner) },
  .object shelf {},
  .field query { name := "outer", type? := some (.union outer) },
  .object query {}]

theorem shelf_uses : registry.Uses 3 (.union inner) :=
  ⟨[3], rfl, 2, by decide, _, rfl, Or.inl rfl⟩

theorem query_uses : registry.Uses 5 (.union outer) :=
  ⟨[5], rfl, 4, by decide, _, rfl, Or.inl rfl⟩

theorem not_registers_inner {s : CompileState}
    (h : s.unionMembers.find? "Found" = some [shelf]) : ¬ s.Registers registry inner := by
  rintro ⟨_, _, -, -, hmembers⟩
  have hsame := hmembers.symm.trans h
  revert hsame
  decide

/-- The outer union is met first, whether it is asked for or the query is. -/
theorem outer_answered : (∀ q ∈ [Request.type (.given (.union outer)) true, .object 5],
    q.isAnswered registry {} = true ∧
      (q.after registry {}).unionMembers.find? "Found" = some [shelf] ∧
      (q.after registry {}).objects.contains 3 = true) ∧
    ((Request.object 5).after registry {}).objects.contains 5 = true := by
  decide

/-- The outer union is asked for. It is the one that is registered, it leads to the
shelves, which use the inner one, and now the inner one is refused. -/
theorem inner_refused : ∃ s : CompileState,
    s.Answered registry [.type (.given (.union outer)) true] ∧ s.Registers registry outer ∧
      (∃ d', d'.name = inner.name ∧ s.Registers registry d' ∧ d'.LeadsTo registry 3) ∧
      (Request.type (.given (.union inner)) true).ask registry s
        = .error (.nameCollision "Found") s := by
  let q : Request := .type (.given (.union outer)) true
  obtain ⟨hq, hfound, hshelf⟩ := outer_answered.1 q List.mem_cons_self
  obtain ⟨_, hasked⟩ := Request.ask_of_isAnswered hq
  have hlost : ¬ (q.after registry {}).Registers registry inner := not_registers_inner hfound
  have hkept : (q.after registry {}).Keeps 3 := Or.inl hshelf
  have hanswered := CompileState.Answered.start.next hasked
  obtain ⟨hregistered, hused, hrefused⟩ := CompileState.Answered.unions_registered hanswered
  refine ⟨_, hanswered, hregistered q (by simp) outer rfl,
    (hused 3 inner hkept shelf_uses).resolve_left hlost, ?_⟩
  exact hrefused _ _ inner rfl rfl (by decide) hlost

/-- The query is answered and both unions are met, but only the outer one is
registered. -/
theorem inner_lost : ∃ s : CompileState, s.Answered registry [.object 5] ∧
    s.Keeps 3 ∧ registry.Uses 3 (.union inner) ∧
    s.Keeps 5 ∧ registry.Uses 5 (.union outer) ∧
    inner.name = outer.name ∧ inner.members ≠ outer.members ∧
    ¬ s.Registers registry inner := by
  obtain ⟨hmet, hquery⟩ := outer_answered
  obtain ⟨hq, hfound, hshelf⟩ := hmet (.object 5) (by simp)
  obtain ⟨_, hasked⟩ := Request.ask_of_isAnswered hq
  exact ⟨_, CompileState.Answered.start.next hasked, Or.inl hshelf, shelf_uses,
    Or.inl hquery, query_uses, rfl, by decide, not_registers_inner hfound⟩

end Nested

end SchemaGraph
