import Mathlib.Data.List.Perm.Basic
import Mathlib.Data.List.Forall2
import Mathlib.Data.List.Nodup
import SchemaGraph.Proofs.OrderedMap

/-!
# Maps with related values

Two maps built in the same way from related values are related: they have the same keys in
the same order, and under each key values that are related. Where only what is looked up
counts, and not the order, the entries of one map are those of the other, rearranged.
-/

set_option autoImplicit false

namespace SchemaGraph.OrderedMap

universe u v w

variable {κ : Type u} {α : Type v} {β : Type w}

/-- Maps that answer alike have the same entries, in whatever order. -/
theorem entries_perm_iff [DecidableEq κ] {m : OrderedMap κ α} {m' : OrderedMap κ β} {f : α → β} :
    m'.entries.Perm (m.entries.map (Prod.map id f)) ↔
      ∀ k, m'.find? k = (m.find? k).map f := by
  have hmem : ∀ k b, (k, b) ∈ m.entries.map (Prod.map id f) ↔
      (m.find? k).map f = some b := by
    intro k b
    simp [find?_eq_some_iff]
  constructor
  · intro h k
    refine Option.ext fun b => ?_
    rw [find?_eq_some_iff, h.mem_iff, hmem]
  · intro h
    have hkeys : (m.entries.map (Prod.map id f)).map Prod.fst = m.keys := by
      rw [List.map_map]
      rfl
    have hnd : ((m.entries.map (Prod.map id f)).map Prod.fst).Nodup := by
      rw [hkeys]
      exact m.nodup_keys
    refine (List.perm_ext_iff_of_nodup (List.Nodup.of_map _ m'.nodup_keys)
      (List.Nodup.of_map _ hnd)).mpr fun e => ?_
    rw [← find?_eq_some_iff, h, hmem]

/-- In entries that may repeat a key, but never with another value, only what is there
counts. -/
theorem lookup_eq_some_iff [DecidableEq κ] {entries : List (κ × α)}
    (hfun : ∀ {k a b}, (k, a) ∈ entries → (k, b) ∈ entries → a = b) {k : κ} {a : α} :
    entries.lookup k = some a ↔ (k, a) ∈ entries := by
  constructor
  · exact mem_of_lookup
  · intro h
    obtain ⟨b, hfind, hb⟩ := exists_lookup_of_mem h
    rw [hfind, hfun hb h]

theorem lookup_congr_mem [DecidableEq κ] {entries entries' : List (κ × α)}
    (hfun : ∀ {k a b}, (k, a) ∈ entries → (k, b) ∈ entries → a = b)
    (hmem : ∀ e, e ∈ entries' ↔ e ∈ entries) (k : κ) :
    entries'.lookup k = entries.lookup k := by
  refine Option.ext fun a => ?_
  rw [lookup_eq_some_iff hfun, lookup_eq_some_iff, hmem]
  intro k a b ha hb
  exact hfun ((hmem _).mp ha) ((hmem _).mp hb)

/-- The same keys in the same order, with values that are related. -/
def Rel (R : α → β → Prop) (m : OrderedMap κ α) (m' : OrderedMap κ β) : Prop :=
  List.Forall₂ (fun e e' => e.1 = e'.1 ∧ R e.2 e'.2) m.entries m'.entries

namespace Rel

variable {R : α → β → Prop} {m : OrderedMap κ α} {m' : OrderedMap κ β}

theorem empty : Rel R (∅ : OrderedMap κ α) (∅ : OrderedMap κ β) := .nil

theorem keys (h : Rel R m m') : m'.keys = m.keys := by
  have hfirst : List.Forall₂ Eq (m.entries.map Prod.fst) (m'.entries.map Prod.fst) := by
    rw [List.forall₂_map_left_iff, List.forall₂_map_right_iff]
    exact h.imp fun _ _ he => he.1
  exact (List.forall₂_eq_eq_eq ▸ hfirst).symm

theorem values (h : Rel R m m') : List.Forall₂ R m.values m'.values := by
  rw [OrderedMap.values, OrderedMap.values, List.forall₂_map_left_iff,
    List.forall₂_map_right_iff]
  exact h.imp fun _ _ he => he.2

variable [DecidableEq κ]

theorem insert (h : Rel R m m') (k : κ) {a : α} {b : β} (hab : R a b) :
    Rel R (m.insert k a) (m'.insert k b) := by
  have hkeys : k ∈ m'.entries.map Prod.fst ↔ k ∈ m.entries.map Prod.fst := by
    have := h.keys
    unfold OrderedMap.keys at this
    rw [this]
  unfold Rel OrderedMap.insert
  by_cases hk : k ∈ m.entries.map Prod.fst
  · rw [dif_pos hk, dif_pos (hkeys.mpr hk)]
    dsimp only
    rw [List.forall₂_map_left_iff, List.forall₂_map_right_iff]
    refine h.imp fun e e' he => ?_
    rw [he.1]
    split
    · exact ⟨rfl, hab⟩
    · exact ⟨he.1, he.2⟩
  · rw [dif_neg hk, dif_neg (mt hkeys.mp hk)]
    exact List.rel_append h (.cons ⟨rfl, hab⟩ .nil)

theorem insertNew (h : Rel R m m') (k : κ) {a : α} {b : β} (hab : R a b) :
    Rel R (m.insertNew k a) (m'.insertNew k b) := by
  unfold OrderedMap.insertNew OrderedMap.contains
  rw [h.keys]
  split
  · exact h
  · exact h.insert k hab

end Rel

end SchemaGraph.OrderedMap
