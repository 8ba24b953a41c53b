import Mathlib.Data.List.Basic
import SchemaGraph.Input.Materialize
import SchemaGraph.Proofs.Compile.Sound

/-!
# Materializing depends on the registry, not on the table

Two compilers over one registry may have met its input objects in different
orders, and their tables differ in what they hold. What a mapping makes of raw
arguments is the same under both, as long as both know the inputs the mapping
refers to: every entry is what the registry means, and it refers to entries
that the table knows again.

The numbers of the inputs play no part in this. Where the nodes of one registry
bear other numbers than those of the other, two tables agree up to that, and a
mapping whose inputs are renamed makes the same of raw arguments.
-/

set_option autoImplicit false

namespace SchemaGraph

/-! ## Other numbers -/

def ValueShape.rename (f : NodeId → NodeId) : ValueShape → ValueShape
  | .plain => .plain
  | .enum d => .enum d
  | .list item => .list (item.rename f)
  | .input id => .input (f id)

def InputFieldShape.rename (f : NodeId → NodeId) (field : InputFieldShape) : InputFieldShape :=
  { field with shape := field.shape.rename f }

def InputObjectShape.rename (f : NodeId → NodeId) (shape : InputObjectShape) :
    InputObjectShape :=
  { shape with fields := shape.fields.map (·.rename f) }

def ArgumentMapping.rename (f : NodeId → NodeId) : ArgumentMapping → ArgumentMapping
  | .none => .none
  | .raw name shape => .raw name (shape.rename f)
  | .instance name id => .instance name (f id)
  | .bundle id => .bundle (f id)

theorem ValueShape.rename_id (shape : ValueShape) : shape.rename id = shape := by
  induction shape with
  | list item ih => rw [rename, ih]
  | plain | enum _ | input _ => rfl

theorem InputFieldShape.rename_id (field : InputFieldShape) : field.rename id = field := by
  rw [rename, field.shape.rename_id]

theorem InputObjectShape.rename_id (shape : InputObjectShape) : shape.rename id = shape := by
  rw [rename, List.map_congr_left fun f _ => f.rename_id, List.map_id']

theorem ArgumentMapping.rename_id (mapping : ArgumentMapping) : mapping.rename id = mapping := by
  cases mapping with
  | raw name shape => rw [rename, shape.rename_id]
  | none | «instance» _ _ | bundle _ => rfl

theorem ValueShape.inputs_rename (f : NodeId → NodeId) (shape : ValueShape) :
    (shape.rename f).inputs = shape.inputs.map f := by
  induction shape with
  | list item ih => exact ih
  | plain | enum _ | input _ => rfl

theorem ArgumentMapping.inputs_rename (f : NodeId → NodeId) (mapping : ArgumentMapping) :
    (mapping.rename f).inputs = mapping.inputs.map f := by
  cases mapping with
  | raw name shape => exact shape.inputs_rename f
  | none | «instance» _ _ | bundle _ => rfl

/-! ## Tables -/

/-- A table is complete when no entry waits to be filled. -/
abbrev ShapeTable.Complete (r : Registry) (table : ShapeTable) : Prop :=
  table.Sound r fun _ => False

variable {r r' : Registry} {table t₁ t₂ : ShapeTable} {ρ : NodeId → NodeId}

theorem ShapeTable.Complete.filled (h : table.Complete r) {id : NodeId}
    (hid : table.contains id = true) :
    ∃ shape, table.filled? id = some shape ∧ Meaning.shape r id = .ok shape ∧
      ∀ f ∈ shape.fields, ∀ i ∈ f.shape.inputs, table.contains i = true := by
  obtain ⟨entry, hentry⟩ := OrderedMap.contains_iff.mp hid
  cases entry with
  | none => exact (h.unfilled hentry).elim
  | some shape =>
      refine ⟨shape, ?_, h.meaning hentry, h.closed hentry⟩
      rw [ShapeTable.filled?, hentry]
      rfl

theorem ShapeTable.find?_of_filled {id : NodeId} {shape : InputObjectShape}
    (h : table.filled? id = some shape) : table.find? id = some (some shape) := by
  unfold filled? at h
  cases hfind : table.find? id with
  | none => simp [hfind] at h
  | some entry => rw [hfind, Option.join_some] at h; rw [h]

/-- Both tables know the input, the second one under its other number. -/
def ShapeTable.Share (ρ : NodeId → NodeId) (t₁ t₂ : ShapeTable) (id : NodeId) : Prop :=
  t₁.contains id = true ∧ t₂.contains (ρ id) = true

/-- Where both tables know an input they have the same shape for it. -/
def ShapeTable.Agree (ρ : NodeId → NodeId) (t₁ t₂ : ShapeTable) : Prop :=
  ∀ id, Share ρ t₁ t₂ id → ∃ shape, t₁.filled? id = some shape ∧
    t₂.filled? (ρ id) = some (shape.rename ρ) ∧
      ∀ f ∈ shape.fields, ∀ i ∈ f.shape.inputs, Share ρ t₁ t₂ i

/-- Complete tables agree if the registries mean the same by an input. -/
theorem ShapeTable.Complete.agree (h₁ : t₁.Complete r) (h₂ : t₂.Complete r')
    (hshape : ∀ id, Meaning.shape r' (ρ id) = (Meaning.shape r id).map (·.rename ρ)) :
    ShapeTable.Agree ρ t₁ t₂ := by
  rintro id ⟨hid₁, hid₂⟩
  obtain ⟨shape, hfilled₁, hmeaning₁, hclosed₁⟩ := h₁.filled hid₁
  obtain ⟨shape', hfilled₂, hmeaning₂, hclosed₂⟩ := h₂.filled hid₂
  rw [hshape, hmeaning₁] at hmeaning₂
  obtain rfl : shape.rename ρ = shape' := Except.ok.inj hmeaning₂
  refine ⟨shape, hfilled₁, hfilled₂, fun f hf i hi => ⟨hclosed₁ f hf i hi, ?_⟩⟩
  refine hclosed₂ (f.rename ρ) (List.mem_map.mpr ⟨f, hf, rfl⟩) (ρ i) ?_
  rw [InputFieldShape.rename, ValueShape.inputs_rename]
  exact List.mem_map.mpr ⟨i, hi, rfl⟩

/-! ## Materializing -/

/-- Completing an input object asks for the conversion of a key by the shape of
the field it completes, and by no other. -/
theorem InputObjectShape.fill_rename {shape : InputObjectShape}
    {plain : List (String × Json)} {given₁ given₂ : List (String × (ValueShape → Json))}
    (h : ∀ f ∈ shape.fields, (Entries.find? given₁ f.name).map (· f.shape)
      = (Entries.find? given₂ f.name).map (· (f.shape.rename ρ))) :
    shape.fill plain given₁ = (shape.rename ρ).fill plain given₂ := by
  unfold InputObjectShape.fill
  rw [rename, List.foldl_map]
  refine List.foldl_ext _ _ _ fun entries f hf => ?_
  have hsame := h f hf
  simp only [InputFieldShape.rename]
  cases h₁ : Entries.find? given₁ f.name with
  | none =>
      cases h₂ : Entries.find? given₂ f.name with
      | none => cases f.default? <;> rfl
      | some convert => simp [h₁, h₂] at hsame
  | some convert₁ =>
      cases h₂ : Entries.find? given₂ f.name with
      | none => simp [h₁, h₂] at hsame
      | some convert₂ =>
          simp only [h₁, h₂, Option.map_some, Option.some.injEq] at hsame
          simp only [hsame]

namespace Value

mutual

theorem toJsonAs_rename (h : ShapeTable.Agree ρ t₁ t₂) :
    ∀ (v : Value) {shape : ValueShape},
      (∀ i ∈ shape.inputs, ShapeTable.Share ρ t₁ t₂ i) →
      v.toJsonAs t₁ shape = v.toJsonAs t₂ (shape.rename ρ)
  | .null, _, _ => rfl
  | .bool _, _, _ => rfl
  | .num _, _, _ => rfl
  | .binary _, _, _ => rfl
  | .enum _, shape, _ => by cases shape <;> rfl
  | .str _, shape, _ => by cases shape <;> rfl
  | .list items, shape, hknown => by
      cases shape with
      | list item =>
          have hitems : ∀ i ∈ item.inputs, ShapeTable.Share ρ t₁ t₂ i := hknown
          rw [ValueShape.rename, toJsonAs, toJsonAs, toJsonAsItems_rename h items hitems]
      | plain | enum _ | input _ => rfl
  | .obj entries, shape, hknown => by
      cases shape with
      | input id =>
          obtain ⟨shape, hfilled₁, hfilled₂, hclosed⟩ :=
            h id (hknown id (List.mem_singleton.mpr rfl))
          rw [ValueShape.rename, toJsonAs, toJsonAs, hfilled₁, hfilled₂]
          simp only [Json.obj.injEq]
          exact InputObjectShape.fill_rename fun f hf =>
            find?_toJsonAsEntries_rename h entries (hclosed f hf)
      | plain | enum _ | list _ => rfl

theorem toJsonAsItems_rename (h : ShapeTable.Agree ρ t₁ t₂) :
    ∀ (items : List Value) {item : ValueShape},
      (∀ i ∈ item.inputs, ShapeTable.Share ρ t₁ t₂ i) →
      toJsonAsItems t₁ items item = toJsonAsItems t₂ items (item.rename ρ)
  | [], _, _ => rfl
  | v :: rest, _, hknown => by
      rw [toJsonAsItems, toJsonAsItems, toJsonAs_rename h v hknown,
        toJsonAsItems_rename h rest hknown]

theorem find?_toJsonAsEntries_rename (h : ShapeTable.Agree ρ t₁ t₂) :
    ∀ (entries : List (String × Value)) {k : String} {shape : ValueShape},
      (∀ i ∈ shape.inputs, ShapeTable.Share ρ t₁ t₂ i) →
      (Entries.find? (toJsonAsEntries t₁ entries) k).map (· shape)
        = (Entries.find? (toJsonAsEntries t₂ entries) k).map (· (shape.rename ρ))
  | [], _, _, _ => rfl
  | (l, v) :: rest, k, shape, hknown => by
      have hrest := find?_toJsonAsEntries_rename h rest (k := k) hknown
      unfold Entries.find? at hrest ⊢
      rw [toJsonAsEntries, toJsonAsEntries, List.lookup_cons, List.lookup_cons]
      cases k == l with
      | true =>
          simp only [Option.map_some, Option.some.injEq]
          exact toJsonAs_rename h v hknown
      | false => exact hrest

end

end Value

theorem InputObjectShape.build_rename (h : ShapeTable.Agree ρ t₁ t₂) {id : NodeId}
    {shape : InputObjectShape} {v : Value} (hid : ShapeTable.Share ρ t₁ t₂ id) :
    shape.build t₁ id v = (shape.rename ρ).build t₂ (ρ id) v := by
  have hknown : ∀ i ∈ (ValueShape.input id).inputs, ShapeTable.Share ρ t₁ t₂ i := by
    intro i hi
    rw [List.mem_singleton.mp hi]
    exact hid
  rw [InputObjectShape.build, InputObjectShape.build, v.toJsonAs_rename h hknown]
  rfl

/-- Tables that agree make the same of raw arguments. -/
theorem ArgumentMapping.materialize_rename (h : ShapeTable.Agree ρ t₁ t₂)
    {mapping : ArgumentMapping} {raw : Value}
    (hknown : ∀ i ∈ mapping.inputs, ShapeTable.Share ρ t₁ t₂ i) :
    mapping.materialize t₁ raw = (mapping.rename ρ).materialize t₂ raw := by
  cases mapping with
  | none => rfl
  | raw name shape =>
      rw [rename, materialize, materialize, Value.toJsonAs_rename h _ hknown]
  | «instance» name id =>
      have hid := hknown id (List.mem_singleton.mpr rfl)
      obtain ⟨shape, hfilled₁, hfilled₂, -⟩ := h id hid
      simp only [rename, materialize, hfilled₁, hfilled₂, InputObjectShape.build_rename h hid]
  | bundle id =>
      have hid := hknown id (List.mem_singleton.mpr rfl)
      obtain ⟨shape, hfilled₁, hfilled₂, -⟩ := h id hid
      simp only [rename, materialize, hfilled₁, hfilled₂, InputObjectShape.build_rename h hid]

theorem ArgumentMapping.materialize_congr (h₁ : t₁.Complete r) (h₂ : t₂.Complete r)
    {mapping : ArgumentMapping} {raw : Value}
    (hknown : ∀ i ∈ mapping.inputs, t₁.contains i = true ∧ t₂.contains i = true) :
    mapping.materialize t₁ raw = mapping.materialize t₂ raw := by
  have hshape : ∀ i, Meaning.shape r (id i) = (Meaning.shape r i).map (·.rename id) := by
    intro i
    cases hmeaning : Meaning.shape r i with
    | error e => exact hmeaning
    | ok shape => rw [Except.map, shape.rename_id]; exact hmeaning
  rw [materialize_rename (h₁.agree h₂ hshape) hknown, mapping.rename_id]

end SchemaGraph
