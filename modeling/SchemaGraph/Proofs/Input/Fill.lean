import Mathlib.Data.List.Induction
import Mathlib.Data.String.Basic
import SchemaGraph.Input.Materialize

/-!
# Completing an input object

Completing an input object stores the answer of one declared field after the other. Storing
under a key forgets what was there and does not touch the other keys, and stores under
different keys commute; this holds of any list of entries, in order or not. So of several
fields of one name the last one that answers settles what is stored under the name, and what
stood there before does not matter.
-/

set_option autoImplicit false

namespace SchemaGraph

/-! ## Storing twice -/

namespace Entries

universe u v

variable {α : Type u}

theorem insert_insert_self (k : String) (a b : α) (entries : List (String × α)) :
    insert k a (insert k b entries) = insert k a entries := by
  induction entries with
  | nil => simp [insert]
  | cons e rest ih =>
      obtain ⟨m, c⟩ := e
      by_cases hm : k = m
      · simp [insert, hm]
      · by_cases hlt : k < m
        · simp [insert, hm, hlt]
        · simp [insert, hm, hlt, ih]

theorem insert_comm_of_lt {k l : String} (hkl : k < l) (a b : α) (entries : List (String × α)) :
    insert k a (insert l b entries) = insert l b (insert k a entries) := by
  have hne : k ≠ l := hkl.ne
  have hnlt : ¬ l < k := hkl.not_gt
  induction entries with
  | nil => simp [insert, hne, hne.symm, hkl, hnlt]
  | cons e rest ih =>
      obtain ⟨m, c⟩ := e
      -- Where `k` goes relative to the first key decides where `l` goes, or the other way.
      rcases lt_trichotomy k m with hkm | rfl | hmk
      · rcases lt_trichotomy l m with hlm | rfl | hml
        · simp [insert, hne, hne.symm, hkl, hnlt, hkm, hkm.ne, hlm, hlm.ne]
        · simp [insert, hne, hne.symm, hkl, hnlt]
        · simp [insert, hne.symm, hnlt, hkm, hkm.ne, hml.ne', hml.not_gt]
      · simp [insert, hne.symm, hnlt]
      · have hml := hmk.trans hkl
        simp [insert, hmk.ne', hmk.not_gt, hml.ne', hml.not_gt, ih]

theorem insert_comm {k l : String} (hkl : k ≠ l) (a b : α) (entries : List (String × α)) :
    insert k a (insert l b entries) = insert l b (insert k a entries) := by
  rcases lt_or_gt_of_ne hkl with hlt | hlt
  · exact insert_comm_of_lt hlt a b entries
  · exact (insert_comm_of_lt hlt b a entries).symm

theorem find?_insert_self (k : String) (a : α) (entries : List (String × α)) :
    find? (insert k a entries) k = some a := by
  rw [find?_insert, if_pos rfl]

theorem find?_insert_of_ne {k l : String} (h : l ≠ k) (a : α) (entries : List (String × α)) :
    find? (insert k a entries) l = find? entries l := by
  rw [find?_insert, if_neg h]

/-- Converting every value of an object keeps it under its key. -/
theorem find?_map {β : Type v} (f : α → β) (entries : List (String × α)) (k : String) :
    find? (entries.map fun e => (e.1, f e.2)) k = (find? entries k).map f := by
  unfold find?
  induction entries with
  | nil => rfl
  | cons e rest ih =>
      rw [List.map_cons, List.lookup_cons, List.lookup_cons]
      cases k == e.1 with
      | true => rfl
      | false => exact ih

end Entries

/-! ## Entries and their conversions -/

namespace Value

theorem toJsonEntries_insert (k : String) (v : Value) (entries : List (String × Value)) :
    toJsonEntries (Entries.insert k v entries)
      = Entries.insert k v.toJson (toJsonEntries entries) := by
  induction entries with
  | nil => rfl
  | cons e rest ih =>
      obtain ⟨m, w⟩ := e
      by_cases hm : k = m
      · simp [Entries.insert, toJsonEntries, hm]
      · by_cases hlt : k < m
        · simp [Entries.insert, toJsonEntries, hm, hlt]
        · simp [Entries.insert, toJsonEntries, hm, hlt, ih]

theorem toJsonEntries_eq_map (entries : List (String × Value)) :
    toJsonEntries entries = entries.map fun e => (e.1, e.2.toJson) := by
  induction entries with
  | nil => rfl
  | cons e rest ih => rw [toJsonEntries, ih, List.map_cons]

theorem toJsonAsEntries_eq_map (table : ShapeTable) (entries : List (String × Value)) :
    toJsonAsEntries table entries = entries.map fun e => (e.1, e.2.toJsonAs table) := by
  induction entries with
  | nil => rfl
  | cons e rest ih => rw [toJsonAsEntries, ih, List.map_cons]

theorem find?_toJsonEntries (entries : List (String × Value)) (k : String) :
    Entries.find? (toJsonEntries entries) k = (Entries.find? entries k).map toJson := by
  rw [toJsonEntries_eq_map, Entries.find?_map]

theorem find?_toJsonAsEntries (table : ShapeTable) (entries : List (String × Value))
    (k : String) :
    Entries.find? (toJsonAsEntries table entries) k
      = (Entries.find? entries k).map (toJsonAs table) := by
  rw [toJsonAsEntries_eq_map, Entries.find?_map]

end Value

/-! ## Completing -/

namespace InputObjectShape

/-- The field that counts for a name: the one declared last. -/
def field? (shape : InputObjectShape) (name : String) : Option InputFieldShape :=
  shape.fields.reverse.find? (·.name = name)

end InputObjectShape

/-- What a declared field stores: the given value, converted, else its default. -/
def InputFieldShape.answer? (f : InputFieldShape)
    (given : List (String × (ValueShape → Json))) : Option Json :=
  match Entries.find? given f.name with
  | some convert => some (convert f.shape)
  | none => f.default?

/-- One step of completing an input object. -/
def InputFieldShape.store (f : InputFieldShape) (given : List (String × (ValueShape → Json)))
    (entries : List (String × Json)) : List (String × Json) :=
  match f.answer? given with
  | some j => Entries.insert f.name j entries
  | none => entries

section

variable {given given' : List (String × (ValueShape → Json))}
  {plain plain' : List (String × Json)} {fields : List InputFieldShape} {k : String}

theorem InputObjectShape.fill_eq (shape : InputObjectShape) :
    shape.fill plain given
      = shape.fields.foldl (fun entries f => f.store given entries) plain := by
  unfold fill
  refine List.foldl_ext _ _ _ fun entries f _ => ?_
  unfold InputFieldShape.store InputFieldShape.answer?
  cases Entries.find? given f.name with
  | some convert => rfl
  | none => cases f.default? <;> rfl

namespace InputFieldShape

theorem answer?_of_given {f : InputFieldShape} {convert : ValueShape → Json}
    (h : Entries.find? given f.name = some convert) : f.answer? given = some (convert f.shape) := by
  rw [answer?, h]

theorem answer?_of_omitted {f : InputFieldShape} (h : Entries.find? given f.name = none) :
    f.answer? given = f.default? := by
  rw [answer?, h]

/-- Only what is given under the name of a field matters to it. -/
theorem answer?_congr {f : InputFieldShape}
    (h : Entries.find? given f.name = Entries.find? given' f.name) :
    f.answer? given = f.answer? given' := by
  rw [answer?, answer?, h]

/-- A field of another name does not touch what is stored under `k`. -/
theorem insert_store_of_ne {f : InputFieldShape} (hf : f.name ≠ k) (j : Json)
    (entries : List (String × Json)) :
    Entries.insert k j (f.store given entries) = f.store given (Entries.insert k j entries) := by
  unfold store
  cases f.answer? given with
  | none => rfl
  | some i => exact Entries.insert_comm hf.symm j i entries

/-- What a field of the name stores is forgotten by the next store under the name. -/
theorem insert_store_self {f : InputFieldShape} (hf : f.name = k) (j : Json)
    (entries : List (String × Json)) :
    Entries.insert k j (f.store given entries) = Entries.insert k j entries := by
  unfold store
  cases f.answer? given with
  | none => rfl
  | some i =>
      rw [hf]
      exact Entries.insert_insert_self k j i entries

theorem find?_store_of_ne {f : InputFieldShape} (hf : f.name ≠ k)
    (entries : List (String × Json)) :
    Entries.find? (f.store given entries) k = Entries.find? entries k := by
  unfold store
  cases f.answer? given with
  | none => rfl
  | some i => exact Entries.find?_insert_of_ne hf.symm i entries

/-- Once something is stored under `k`, it makes no difference what the fields found there
or what was given under it. -/
theorem insert_foldl_store_congr {j : Json}
    (hgiven : ∀ l, l ≠ k → Entries.find? given l = Entries.find? given' l)
    (hplain : Entries.insert k j plain = Entries.insert k j plain') :
    Entries.insert k j (fields.foldl (fun entries f => f.store given entries) plain)
      = Entries.insert k j (fields.foldl (fun entries f => f.store given' entries) plain') := by
  induction fields using List.reverseRecOn with
  | nil => exact hplain
  | append_singleton fields f ih =>
      rw [List.foldl_append, List.foldl_append]
      by_cases hf : f.name = k
      · exact (insert_store_self hf j _).trans (ih.trans (insert_store_self hf j _).symm)
      · have hsame : ∀ entries, f.store given entries = f.store given' entries := fun entries => by
          rw [store, store, answer?_congr (hgiven f.name hf)]
        rw [List.foldl_cons, List.foldl_nil, List.foldl_cons, List.foldl_nil,
          insert_store_of_ne hf, ih, hsame, insert_store_of_ne hf]

/-- What the last field of a name answers is what is stored under the name. -/
theorem insert_foldl_store {f : InputFieldShape} {j : Json}
    (hf : fields.reverse.find? (·.name = k) = some f) (hj : f.answer? given = some j) :
    Entries.insert k j (fields.foldl (fun entries f => f.store given entries) plain)
      = fields.foldl (fun entries f => f.store given entries) plain := by
  induction fields using List.reverseRecOn with
  | nil => cases hf
  | append_singleton fields g ih =>
      rw [List.foldl_append, List.foldl_cons, List.foldl_nil]
      rw [List.reverse_append, List.reverse_singleton, List.singleton_append,
        List.find?_cons] at hf
      by_cases hg : g.name = k
      · obtain rfl : g = f := by simpa [hg] using hf
        rw [store, hj, hg, Entries.insert_insert_self]
      · rw [insert_store_of_ne hg, ih (by simpa [hg] using hf)]

/-- What no field of a name answers is as it was. -/
theorem find?_foldl_store (h : ∀ f ∈ fields, f.name = k → f.answer? given = none) :
    Entries.find? (fields.foldl (fun entries f => f.store given entries) plain) k
      = Entries.find? plain k := by
  induction fields using List.reverseRecOn with
  | nil => rfl
  | append_singleton fields f ih =>
      rw [List.foldl_append, List.foldl_cons, List.foldl_nil]
      have hrest := ih fun g hg => h g (List.mem_append_left _ hg)
      by_cases hf : f.name = k
      · rw [store, h f (by simp) hf]
        exact hrest
      · rw [find?_store_of_ne hf, hrest]

/-- What is stored under a name may be replaced and stays stored. -/
theorem find?_store_ne_none {f : InputFieldShape} {entries : List (String × Json)}
    (h : Entries.find? entries k ≠ none) :
    Entries.find? (f.store given entries) k ≠ none := by
  unfold store
  cases f.answer? given with
  | none => exact h
  | some i =>
      rw [Entries.find?_insert]
      split
      · simp
      · exact h

/-- What a field answers is stored, by it or by a later field of its name. -/
theorem find?_foldl_store_ne_none {f : InputFieldShape} {j : Json} (hf : f ∈ fields)
    (hj : f.answer? given = some j) :
    Entries.find? (fields.foldl (fun entries f => f.store given entries) plain) f.name
      ≠ none := by
  induction fields using List.reverseRecOn with
  | nil => cases hf
  | append_singleton fields g ih =>
      rw [List.foldl_append, List.foldl_cons, List.foldl_nil]
      rcases List.mem_append.mp hf with hf | hf
      · exact find?_store_ne_none (ih hf)
      · obtain rfl := List.mem_singleton.mp hf
        rw [store, hj, Entries.find?_insert_self]
        simp

end InputFieldShape

namespace InputObjectShape

variable {shape : InputObjectShape} {f : InputFieldShape} {j : Json}

theorem name_of_field? (hf : shape.field? k = some f) : f.name = k := by
  simpa using List.find?_some hf

theorem mem_of_field? (hf : shape.field? k = some f) : f ∈ shape.fields :=
  List.mem_reverse.mp (List.mem_of_find?_eq_some hf)

theorem insert_fill (hf : shape.field? k = some f) (hj : f.answer? given = some j) :
    Entries.insert k j (shape.fill plain given) = shape.fill plain given := by
  rw [fill_eq]
  exact InputFieldShape.insert_foldl_store hf hj

theorem find?_fill (hf : shape.field? k = some f) (hj : f.answer? given = some j) :
    Entries.find? (shape.fill plain given) k = some j := by
  rw [← insert_fill hf hj, Entries.find?_insert_self]

theorem find?_fill_of_unanswered (h : ∀ f ∈ shape.fields, f.name = k → f.answer? given = none) :
    Entries.find? (shape.fill plain given) k = Entries.find? plain k := by
  rw [fill_eq]
  exact InputFieldShape.find?_foldl_store h

theorem find?_fill_ne_none (hf : f ∈ shape.fields) (hj : f.answer? given = some j) :
    Entries.find? (shape.fill plain given) f.name ≠ none := by
  rw [fill_eq]
  exact InputFieldShape.find?_foldl_store_ne_none hf hj

/-- Of two objects that differ at most in what is under `k`, one is completed as the other is
and then with what the field that counts for `k` answers. -/
theorem fill_eq_insert_fill (hf : shape.field? k = some f) (hj : f.answer? given = some j)
    (hgiven : ∀ l, l ≠ k → Entries.find? given l = Entries.find? given' l)
    (hplain : ∀ i, Entries.insert k i plain = Entries.insert k i plain') :
    shape.fill plain given = Entries.insert k j (shape.fill plain' given') := by
  rw [← insert_fill hf hj, fill_eq, fill_eq]
  exact InputFieldShape.insert_foldl_store_congr hgiven (hplain j)

end InputObjectShape

end

end SchemaGraph
