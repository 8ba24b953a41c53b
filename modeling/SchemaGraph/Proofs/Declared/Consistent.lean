import SchemaGraph.Proofs.Declared.Ancestry
import SchemaGraph.Proofs.Declared.Tidy

/-!
# Consistent registries

A registry stores node numbers in many places: under host types, in waiting rooms,
in the nodes themselves. `Consistent` says that all of them mean what they are stored
as. Each number is that of a node of the right kind and host type; types and argument
bundles are found under their host types and nowhere else; a member is in one place at
most; a field has one argument at most; objects and interfaces agree on who implements
what.

The main statement is that this holds after any changes in any order: declarations of
single nodes and of whole types, successful or not, and starting over.
-/

set_option autoImplicit false

namespace SchemaGraph

/-! ## Changes -/

namespace Declare

/-- How the declaration of a whole type ends. -/
inductive Finish where
  | object (decl : ObjectDecl)
  | interface (decl : TypeDecl)
  | inputObject (construct : Json → Except DecodeError HostValue) (decl : TypeDecl)
  | args (construct : Json → Except DecodeError HostValue)
  /-- The members are left waiting. -/
  | none

def finish (t : HostType) : Finish → RegistryM (Option NodeId)
  | .object decl => some <$> object t decl
  | .interface decl => some <$> interface t decl
  | .inputObject construct decl => some <$> inputObject ⟨t, construct⟩ decl
  | .args construct => some <$> args ⟨t, construct⟩
  | .none => pure Option.none

/-- Declare a type with its members. A member that fails is the end of it. -/
def build (t : HostType) (ms : List Member) (f : Finish) : RegistryM (Option NodeId) := do
  members t ms
  finish t f

def Member.declaration (t : HostType) : Member → Declaration
  | .field decl => .field t decl
  | .inputField decl => .inputField t decl
  | .arg f decl => .arg t f decl
  | .implements interface => .implement t interface

end Declare

/-- What can be done to a registry. -/
inductive Change where
  | declare (d : Declaration)
  | build (t : HostType) (members : List Declare.Member) (finish : Declare.Finish)
  | clear

/-- The registry after a change, whether it failed or not. -/
def Change.after : Change → Registry → Registry
  | .declare d, r => d.run.after r
  | .build t ms f, r => (Declare.build t ms f).after r
  | .clear, _ => .empty

/-- The registry after changes, beginning with none. -/
def Registry.ofChanges (cs : List Change) : Registry :=
  cs.foldl (fun r c => c.after r) .empty

namespace Registry.Reached

variable {r : Registry} {α β : Type}

theorem bind {x : RegistryM α} {f : α → RegistryM β} (hx : (x.after r).Reached)
    (hf : ∀ a r', r'.Reached → ((f a).after r').Reached) :
    ((x >>= f).after r).Reached := by
  show (RegistryM.after (EStateM.bind x f) r).Reached
  unfold RegistryM.after EStateM.bind at *
  cases hrun : x r with
  | ok a r' =>
      rw [hrun] at hx
      exact hf a r' hx
  | error e r' =>
      rw [hrun] at hx
      exact hx

theorem map {x : RegistryM α} {f : α → β} (hx : (x.after r).Reached) :
    ((f <$> x).after r).Reached := by
  show (RegistryM.after (EStateM.map f x) r).Reached
  unfold RegistryM.after EStateM.map at *
  cases hrun : x r with
  | ok a r' =>
      rw [hrun] at hx
      exact hx
  | error e r' =>
      rw [hrun] at hx
      exact hx

theorem members (h : r.Reached) (t : HostType) (ms : List Declare.Member) :
    ((Declare.members t ms).after r).Reached := by
  induction ms generalizing r with
  | nil => exact h
  | cons m rest ih =>
      have hmember : Declare.member t m = (m.declaration t).run := by cases m <;> rfl
      rw [Declare.members, hmember]
      exact bind (.declare _ h) fun _ _ hr' => ih hr'

theorem finish (h : r.Reached) (t : HostType) (f : Declare.Finish) :
    ((Declare.finish t f).after r).Reached := by
  cases f with
  | object decl => exact map (.declare (.object t decl) h)
  | interface decl => exact map (.declare (.interface t decl) h)
  | inputObject construct decl => exact map (.declare (.inputObject ⟨t, construct⟩ decl) h)
  | args construct => exact map (.declare (.args ⟨t, construct⟩) h)
  | none => exact h

theorem change (h : r.Reached) (c : Change) : (c.after r).Reached := by
  cases c with
  | declare d => exact .declare d h
  | build t ms f => exact bind (h.members t ms) fun _ _ hr' => hr'.finish t f
  | clear => exact .empty

/-- Changes lead nowhere that single declarations do not lead. -/
theorem ofChanges (cs : List Change) : (Registry.ofChanges cs).Reached := by
  have hfold : ∀ {r : Registry}, r.Reached →
      (cs.foldl (fun r c => c.after r) r).Reached := by
    induction cs with
    | nil => exact id
    | cons c rest ih => exact fun hr => ih (hr.change c)
  exact hfold .empty

end Registry.Reached

/-! ## Stored numbers -/

/-- Where a registry stores node numbers. -/
inductive Slot where
  /-- The type of a host type. -/
  | type (t : HostType)
  /-- The argument bundle of a host type. -/
  | bundle (t : HostType)
  | members (p : Place)
  /-- The objects noted on an interface. -/
  | implementers (interface : NodeId)
  /-- The end of an implements edge. -/
  | target (edge : NodeId)

/-- The kinds of nodes that may be stored somewhere. -/
def Slot.Requires : Slot → NodeKind → Prop
  | .type _, kind => kind = .object ∨ kind = .interface ∨ kind = .inputObject
  | .bundle _, kind => kind = .args
  | .members p, kind => p.Admits kind
  | .implementers _, kind => kind = .object
  | .target _, kind => kind = .interface

/-- The host type that something is stored under. -/
def Slot.key? : Slot → Option HostType
  | .type t => some t
  | .bundle t => some t
  | .members (.waiting t) => some t
  | _ => none

namespace Registry

variable {r : Registry}

def stored (r : Registry) : Slot → List NodeId
  | .type t => (r.types.find? t).toList
  | .bundle t => (r.args.find? t).toList
  | .members p => r.members p
  | .implementers i => r.implementersOf i
  | .target e => (r.target? e).toList

structure Consistent (r : Registry) : Prop where
  /-- A stored number is that of a node of a kind that may be there. -/
  points : ∀ {s id}, id ∈ r.stored s → id < r.size ∧ s.Requires (r.node id).kind
  /-- What is stored under a host type was declared on its behalf. -/
  keys : ∀ {s t id}, s.key? = some t → id ∈ r.stored s → (r.node id).type = t
  types : ∀ {id}, (r.node id).isSchemaType = true → r.types.values.count id = 1
  bundles : ∀ {id}, (r.node id).kind = .args → r.args.values.count id = 1
  once : r.Once
  /-- Members are held by nodes of their host type. -/
  owners : ∀ {o k m}, m ∈ (r.node o).held k → (r.node m).type = (r.node o).type
  /-- A field that holds an argument is held by a type itself. -/
  claimed : ∀ {f a}, a ∈ (r.node f).held .arg → ∃ o, f ∈ (r.node o).held .field
  single : ∀ {f n}, r.node f = .field n → n.args.length ≤ 1 ∧
    ∀ a ∈ n.args, ∃ x, r.node a = .arg x ∧ x.field = n.decl.name ∧ x.type = n.type
  /-- An interface notes an object once for each edge from the object to it. -/
  implementers : ∀ i o, (r.implementersOf i).count o =
    (r.edgesOf o).countP fun e => r.target? e = some i

/-- In a list without duplicates whose elements are all equal there is one at most. -/
theorem length_le_one {l : List NodeId} (hnd : l.Nodup) (h : ∀ a ∈ l, ∀ b ∈ l, a = b) :
    l.length ≤ 1 := by
  cases l with
  | nil => exact Nat.zero_le _
  | cons a rest =>
      cases rest with
      | nil => exact Nat.le_refl _
      | cons b rest =>
          rw [h a (by simp) b (by simp)] at hnd
          simp at hnd

namespace Tidy

theorem count_types (h : r.Tidy) {id : NodeId} (hid : (r.node id).isSchemaType = true) :
    r.types.values.count id = 1 := by
  have hmem : id ∈ r.types.values :=
    OrderedMap.mem_values.mpr ⟨_, OrderedMap.mem_of_find? (h.wellFormed.registered hid)⟩
  have hnd : r.types.values.Nodup := h.indexed.types.imp fun hlt => Nat.ne_of_lt hlt
  rw [hnd.count, if_pos hmem]

theorem count_args (h : r.Tidy) {id : NodeId} (hid : (r.node id).kind = .args) :
    r.args.values.count id = 1 := by
  have hmem : id ∈ r.args.values :=
    OrderedMap.mem_values.mpr ⟨_, OrderedMap.mem_of_find? (h.indexed.bundle hid)⟩
  have hnd : r.args.values.Nodup := h.indexed.args.imp fun hlt => Nat.ne_of_lt hlt
  rw [hnd.count, if_pos hmem]

/-- What is stored as a node of some kind is one. -/
theorem points (h : r.Tidy) {s : Slot} {id : NodeId} (hid : id ∈ r.stored s) :
    id < r.size ∧ s.Requires (r.node id).kind := by
  cases s with
  | type t =>
      have hschema := (h.wellFormed.declared (Option.mem_toList.mp hid)).1
      exact ⟨lt_size_of_isSchemaType hschema, Node.kind_of_isSchemaType hschema⟩
  | bundle t =>
      obtain ⟨a, ha⟩ := h.wellFormed.bundled (Option.mem_toList.mp hid)
      refine ⟨lt_size_of_args ha, ?_⟩
      rw [ha]
      rfl
  | members p => exact ⟨(h.fits hid).lt_size, (h.fits hid).admits⟩
  | implementers i =>
      have hobject := isObject_of_implements (h.wellFormed.mem_implementersOf.mp hid)
      obtain ⟨n, hn⟩ := Node.exists_of_isObject hobject
      refine ⟨lt_size_of_isSchemaType (Node.isSchemaType_of_isObject hobject), ?_⟩
      rw [hn]
      rfl
  | target e =>
      have hinterface := h.wellFormed.targets (Option.mem_toList.mp hid)
      obtain ⟨n, hn⟩ := Node.exists_of_isInterface hinterface
      refine ⟨lt_size_of_isInterface hinterface, ?_⟩
      rw [hn]
      rfl

theorem keys (h : r.Tidy) {s : Slot} {t : HostType} {id : NodeId} (hs : s.key? = some t)
    (hid : id ∈ r.stored s) : (r.node id).type = t := by
  cases s with
  | type t' =>
      obtain rfl := Option.some.inj hs
      exact (h.wellFormed.declared (Option.mem_toList.mp hid)).2
  | bundle t' =>
      obtain rfl := Option.some.inj hs
      exact h.indexed.key (Option.mem_toList.mp hid)
  | members p =>
      cases p with
      | waiting t' =>
          obtain rfl := Option.some.inj hs
          exact (h.fits (p := .waiting t') hid).type rfl
      | heldBy o k => cases hs
      | stray => cases hs
  | implementers i => cases hs
  | target e => cases hs

/-- The arguments of a field: one at most, declared for a field of its name on behalf of
the same host type. -/
theorem single_arg (h : r.Tidy) {f : NodeId} {n : FieldNode} (hn : r.node f = .field n) :
    n.args.length ≤ 1 ∧
      ∀ a ∈ n.args, ∃ x, r.node a = .arg x ∧ x.field = n.decl.name ∧ x.type = n.type := by
  have hheld : r.members (.heldBy f .arg) = n.args := by
    rw [members, hn]
    rfl
  have hnd : n.args.Nodup := hheld ▸ h.once.nodup _
  refine ⟨length_le_one hnd fun a ha b hb => h.single (hheld ▸ ha) (hheld ▸ hb), ?_⟩
  intro a ha
  rw [← hheld] at ha
  obtain ⟨x, hx, hname⟩ := h.named ha
  have hnode := Node.eq_arg_of_arg? hx
  refine ⟨x, hnode, ?_, ?_⟩
  · rw [hn] at hname
    exact (Option.some.inj hname).symm
  · have htype := (h.fits ha).type rfl
    rw [hnode, hn] at htype
    exact htype

theorem consistent (h : r.Tidy) : r.Consistent where
  points := h.points
  keys := h.keys
  types := h.count_types
  bundles := h.count_args
  once := h.once
  owners {o k _} hm := (h.fits (p := .heldBy o k) hm).type rfl
  claimed := h.owned
  single := h.single_arg
  implementers := h.wellFormed.implementers

end Tidy

/-- Whatever is done to a registry, it is consistent. -/
theorem consistent_ofChanges (cs : List Change) : (ofChanges cs).Consistent :=
  (Reached.ofChanges cs).tidy.consistent

end Registry

end SchemaGraph
