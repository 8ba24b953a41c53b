import SchemaGraph.Proofs.Compile.Renaming
import SchemaGraph.Proofs.Compile.Requests
import SchemaGraph.Proofs.Declared.Orders

/-!
# Schemas do not depend on the order of declarations

Types refer to each other by their host types, and a reference is followed when something
is compiled, not when it is declared. So the order in which types are declared should not
matter, as long as what belongs to one type is declared in its order, and an interface
before whoever says to implement it.

It does not. The registries are renamings of each other, and compilers of such registries
give the same answers: whatever a compiler answers is the meaning of what it was asked, and
meanings are the same. The answers name inputs by their numbers, and these differ, but the
tables that belong to them differ in the same way.
-/

set_option autoImplicit false

namespace SchemaGraph

open CompileState

variable {σ : Equiv.Perm NodeId} {r r' : Registry}

/-! ## Requests to either registry -/

/-- The same request to a registry with other numbers. -/
def Request.rename (σ : Equiv.Perm NodeId) : Request → Request
  | .type l nonNull => .type (l.rename σ) nonNull
  | .outputType l nonNull owner field => .outputType (l.rename σ) nonNull owner field
  | .inputType l nonNull owner field => .inputType (l.rename σ) nonNull owner field
  | .object id => .object (σ id)
  | .interface id => .interface (σ id)
  | .inputObject id => .inputObject (σ id)
  | .named l => .named (l.rename σ)
  | .fieldMap owner ids => .fieldMap owner (ids.map σ)

inductive Answer.Same (σ : Equiv.Perm NodeId) : Answer → Answer → Prop where
  | ref {c c' : CompiledRef} : c.Same c' → Same σ (.ref c) (.ref c')
  | type {c c' : CompiledType} : c.Same σ c' → Same σ (.type c) (.type c')
  | fields {m m' : OrderedMap String CompiledField} :
      m.Rel (CompiledField.Same σ) m' → Same σ (.fields m) (.fields m')

theorem CompiledType.Same.outputFields {c c' : CompiledType} (h : c.Same σ c') :
    List.Forall₂ (CompiledField.Same σ) c.outputFields c'.outputFields := by
  cases h with
  | object h => exact h.fields.values
  | interface h => exact h.fields.values
  | inputObject _ => exact .nil

theorem Answer.Same.outputFields {a a' : Answer} (h : a.Same σ a') :
    List.Forall₂ (CompiledField.Same σ) a.outputFields a'.outputFields := by
  cases h with
  | ref _ => exact .nil
  | type h => exact h.outputFields
  | fields h => exact h.values

/-- Both registries have the same to say to a request. -/
theorem Request.meaning_renamed (h : r.Renames σ r') (hr : r.WellFormed) (hr' : r'.WellFormed)
    (q : Request) :
    Option.Rel (Meaning.Relates (Answer.Same σ)) (q.meaning? r) ((q.rename σ).meaning? r') := by
  cases q with
  | type l nonNull =>
      exact .some ((Meaning.link_renamed h hr hr' l nonNull).map fun _ _ => .ref)
  | outputType l nonNull owner field =>
      exact .some ((Meaning.output_renamed h hr hr' l nonNull owner field).map fun _ _ => .ref)
  | inputType l nonNull owner field =>
      exact .some ((Meaning.input_renamed h hr hr' l nonNull owner field).map fun _ _ => .ref)
  | object id =>
      exact .some ((Meaning.object_renamed h hr hr' id).map fun _ _ hc => .type (.object hc))
  | interface id =>
      exact .some ((Meaning.interface_renamed h hr hr' id).map fun _ _ hc =>
        .type (.interface hc))
  | inputObject id =>
      refine .some ((Meaning.inputObject_renamed h hr hr' id).map fun c _ hc => ?_)
      rw [hc]
      exact .type (.inputObject c)
  | named l =>
      cases l with
      | node id => exact .some ((Meaning.type_renamed h hr hr' id).map fun _ _ => .type)
      | given e => exact .none
  | fieldMap owner ids =>
      exact .some ((Meaning.fields_renamed h hr hr' owner ids .empty).map fun _ _ => .fields)

/-- For raw arguments the one field under the one table makes what the other makes under
the other. -/
def CompiledField.MaterializesAs (table table' : ShapeTable) (f f' : CompiledField) : Prop :=
  ∀ raw, f.resolver.arguments.materialize table raw
    = f'.resolver.arguments.materialize table' raw

/-- Compilers of registries that are renamings of each other give the same answers, and the
fields of an answer make the same of their raw arguments. -/
theorem Request.answers_renamed (h : r.Renames σ r') (hr : r.WellFormed)
    (hr' : r'.WellFormed) {q : Request} (hq : ∀ e, q ≠ .named (.given e)) {a a' : Answer}
    {s s' t t' : CompileState} (hs : Reaches r {} s) (hs' : Reaches r' {} s')
    (hask : q.ask r s = .ok a t) (hask' : (q.rename σ).ask r' s' = .ok a' t') :
    a.Same σ a' ∧ List.Forall₂ (CompiledField.MaterializesAs t.shapes t'.shapes)
      a.outputFields a'.outputFields := by
  have hmeaning := meaning_renamed h hr hr' q
  obtain ⟨x, hx⟩ := exists_meaning r hq
  generalize hx' : (q.rename σ).meaning? r' = x'? at hmeaning
  rw [hx] at hmeaning
  obtain ⟨hsame⟩ := hmeaning
  obtain ⟨hadv, hanswer⟩ := ask_ok hs.settled hask
  obtain ⟨hadv', hanswer'⟩ := ask_ok hs'.settled hask'
  obtain ⟨rfl, hknown⟩ := hanswer x hx
  obtain ⟨rfl, hknown'⟩ := hanswer' _ hx'
  have hsame := hsame a a' rfl rfl
  refine ⟨hsame, List.forall₂_iff_zip.mpr ⟨hsame.outputFields.length_eq, ?_⟩⟩
  intro f f' hff raw
  obtain ⟨hf, hf'⟩ := List.of_mem_zip hff
  have harguments := (List.forall₂_zip hsame.outputFields hff).resolver.arguments
  have hagree : ShapeTable.Agree σ t.shapes t'.shapes :=
    ShapeTable.Complete.agree hadv.sound.shapes hadv'.sound.shapes (Meaning.shape_renamed h)
  rw [harguments]
  refine ArgumentMapping.materialize_rename hagree fun i hi => ⟨hknown f hf i hi, ?_⟩
  refine hknown' f' hf' (σ i) ?_
  rw [harguments, ArgumentMapping.inputs_rename]
  exact List.mem_map.mpr ⟨i, hi, rfl⟩

/-! ## Two orders -/

/-- Compile a declared type as what it is. -/
def Compile.declared (r : Registry) (id : NodeId) : CompileM CompiledType :=
  match r.node id with
  | .object _ => .object <$> object r id
  | .interface _ => .interface <$> interface r id
  | .inputObject _ => .inputObject <$> inputObject r id
  | n => throw (.typeNotFound n.displayName)

/-- The request for a type of this kind. -/
def Request.ofKind : NodeKind → NodeId → Request
  | .object, id => .object id
  | .interface, id => .interface id
  | _, id => .inputObject id

theorem Request.rename_ofKind (kind : NodeKind) (id : NodeId) :
    (ofKind kind id).rename σ = ofKind kind (σ id) := by
  cases kind <;> rfl

theorem Request.ofKind_ne_named {kind : NodeKind} {id : NodeId} {l : Link} :
    ofKind kind id ≠ .named l := by
  cases kind <;> simp [ofKind]

/-- Compiling a declared type answers the request for a type of its kind. -/
theorem Compile.declared_ok {id : NodeId} {c : CompiledType} {s t : CompileState}
    (h : declared r id s = .ok c t) :
    (Request.ofKind (r.node id).kind id).ask r s = .ok (.type c) t := by
  unfold declared at h
  cases hn : r.node id with
  | object n =>
      simp only [hn] at h
      obtain ⟨c, hrun, rfl⟩ := map_eq_ok.mp h
      exact map_eq_ok.mpr ⟨c, hrun, rfl⟩
  | interface n =>
      simp only [hn] at h
      obtain ⟨c, hrun, rfl⟩ := map_eq_ok.mp h
      exact map_eq_ok.mpr ⟨c, hrun, rfl⟩
  | inputObject n =>
      simp only [hn] at h
      obtain ⟨c, hrun, rfl⟩ := map_eq_ok.mp h
      exact map_eq_ok.mpr ⟨c, hrun, rfl⟩
  | field _ | args _ | arg _ | inputField _ | implement _ =>
      simp only [hn] at h
      exact absurd h throw_ne_ok

/-- Two lists of declarations that agree on every type and succeed completely lead to
registries that are renamings of each other. A type that is declared in one is declared in
the other, and if new compilers of both compile it, it is compiled to the same. -/
theorem Declaration.orders_agree {a b : List Declaration}
    (hsame : ∀ t, a.filter (fun d => d.type = t) = b.filter fun d => d.type = t)
    (ha : runAll a .empty = .ok () r) (hb : runAll b .empty = .ok () r') :
    ∃ σ : Equiv.Perm NodeId, r.Renames σ r' ∧
      ∀ t id, r.types.find? t = some id → r'.types.find? t = some (σ id) ∧
        ∀ c c' s s', Compile.declared r id {} = .ok c s →
          Compile.declared r' (σ id) {} = .ok c' s' →
          c.Same σ c' ∧ List.Forall₂ (CompiledField.MaterializesAs s.shapes s'.shapes)
            c.outputFields c'.outputFields := by
  obtain ⟨σ, hσ⟩ := Shuffles.exists_of_same hsame
  have ha := Registry.Accepts.of_runAll ha
  have hb := Registry.Accepts.of_runAll hb
  have hrenames := Registry.Accepts.renames ha hb hσ
  refine ⟨σ, hrenames, fun t id hid => ⟨?_, fun c c' s s' hc hc' => ?_⟩⟩
  · rw [hrenames.find?_types, hid]
    rfl
  · have hask := Compile.declared_ok hc
    have hask' := Compile.declared_ok hc'
    rw [Node.kind_of_bare (hrenames.bare id), ← Request.rename_ofKind] at hask'
    obtain ⟨hanswers, hargs⟩ := Request.answers_renamed hrenames ha.tidy.wellFormed
      hb.tidy.wellFormed (fun _ => Request.ofKind_ne_named) .refl .refl hask hask'
    cases hanswers with
    | type hanswer => exact ⟨hanswer, hargs⟩

/-- Whether a new compiler gets through. -/
def Compile.succeeds {α : Type} (x : CompileM α) : Bool :=
  match x {} with
  | .ok _ _ => true
  | .error _ _ => false

theorem Compile.exists_of_succeeds {α : Type} {x : CompileM α} (h : succeeds x = true) :
    ∃ a s, x {} = .ok a s := by
  unfold succeeds at h
  cases hrun : x {} with
  | ok a s => exact ⟨a, s, rfl⟩
  | error e s => simp [hrun] at h

/-! ### Shelves before books

The shelf is declared after what stands on it, or before. -/

namespace Shelves

def item : HostType := ⟨"Item"⟩

def book : HostType := ⟨"Book"⟩

def filter : HostType := ⟨"Filter"⟩

def shelf : HostType := ⟨"Shelf"⟩

def items : List Declaration := [
  .field item { name := "title", type? := some .string },
  .interface item {},
  .implement book item,
  .object book {}]

def text : Declaration := .inputField filter { name := "text", type? := some .string }

def filters : Declaration := .inputObject ⟨filter, fun j => .ok ⟨filter, j, []⟩⟩ {}

/-- The items on a shelf, found by a filter. -/
def found : Declaration := .field shelf
  { name := "items", type? := some (.list (.ref item)), arg? := some (.ref filter) }

def foundBy : Declaration := .arg shelf "items" { name := "filter" }

def shelves : Declaration := .object shelf {}

def upwards : List Declaration := items ++ [text, filters, found, foundBy, shelves]

def downwards : List Declaration := [found, text, foundBy, shelves, filters] ++ items

theorem same_on_every_type (t : HostType) :
    upwards.filter (fun d => d.type = t) = downwards.filter fun d => d.type = t := by
  by_cases hitem : item = t
  · subst hitem; rfl
  · by_cases hbook : book = t
    · subst hbook; rfl
    · by_cases hfilter : filter = t
      · subst hfilter; rfl
      · by_cases hshelf : shelf = t
        · subst hshelf; rfl
        · simp [upwards, downwards, items, text, filters, found, foundBy, shelves,
            Declaration.type, hitem, hbook, hfilter, hshelf]

/-- The registries, one declared upwards and one downwards. -/
def up : Registry := .ofDeclarations upwards

def down : Registry := .ofDeclarations downwards

theorem shelf_agrees : ∃ σ c c' s s',
    Declaration.runAll upwards .empty = .ok () up ∧
      Declaration.runAll downwards .empty = .ok () down ∧ up.Renames σ down ∧
      Compile.declared up 8 {} = .ok c s ∧ Compile.declared down 3 {} = .ok c' s' ∧
      c.Same σ c' ∧ List.Forall₂ (CompiledField.MaterializesAs s.shapes s'.shapes)
        c.outputFields c'.outputFields := by
  have hup : Declaration.runAll upwards .empty = .ok () up := rfl
  have hdown : Declaration.runAll downwards .empty = .ok () down := rfl
  obtain ⟨σ, hrenames, hagree⟩ := Declaration.orders_agree same_on_every_type hup hdown
  obtain ⟨hshelf, hcompiled⟩ := hagree shelf 8 rfl
  obtain ⟨c, s, hc⟩ := Compile.exists_of_succeeds
    (show Compile.succeeds (Compile.declared up 8) = true by decide +kernel)
  obtain ⟨c', s', hc'⟩ := Compile.exists_of_succeeds
    (show Compile.succeeds (Compile.declared down 3) = true by decide +kernel)
  have hnumber : σ 8 = 3 := (Option.some.inj hshelf).symm
  rw [hnumber] at hcompiled
  exact ⟨σ, c, c', s, s', hup, hdown, hrenames, hc, hc', hcompiled c c' s s' hc hc'⟩

end Shelves

end SchemaGraph
