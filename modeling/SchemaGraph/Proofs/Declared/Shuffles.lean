import Mathlib.Data.List.Basic
import Mathlib.Logic.Equiv.Basic
import SchemaGraph.Proofs.Declared.Outcomes

/-!
# The same declarations in another order

Two lists of declarations that agree on every single host type differ only in how the
declarations of different types are interleaved. So there is one permutation of positions
that takes each declaration to itself and keeps those of one type in their order. It is
built from the front: the first declaration of the one list stands somewhere in the other,
before it come declarations of other types only, and without the two the lists agree as
well.
-/

set_option autoImplicit false

namespace SchemaGraph

/-- The declarations on behalf of a host type, with their positions. -/
def Declaration.numbered (t : HostType) (ds : List Declaration) : List (Declaration × Nat) :=
  ds.zipIdx.filter fun e => e.1.type = t

namespace Declaration

variable {t : HostType} {d : Declaration} {ds : List Declaration}

theorem mem_numbered {e : Declaration × Nat} :
    e ∈ numbered t ds ↔ ds[e.2]? = some e.1 ∧ e.1.type = t := by
  rw [numbered, List.mem_filter, List.mem_zipIdx_iff_getElem?, decide_eq_true_iff]

theorem numbered_append (t : HostType) (ds ds' : List Declaration) :
    numbered t (ds ++ ds') =
      numbered t ds ++ (numbered t ds').map (Prod.map id (ds.length + ·)) := by
  have hlater : ds'.zipIdx ds.length = ds'.zipIdx.map (Prod.map id (ds.length + ·)) :=
    List.zipIdx_eq_map_add
  rw [numbered, List.zipIdx_append, List.filter_append, Nat.zero_add, hlater, List.filter_map]
  rfl

theorem numbered_singleton (t : HostType) (d : Declaration) :
    numbered t [d] = if d.type = t then [(d, 0)] else [] := by
  by_cases h : d.type = t
  · simp [numbered, h]
  · simp [numbered, h]

theorem numbered_concat (t : HostType) (ds : List Declaration) (d : Declaration) :
    numbered t (ds ++ [d]) =
      numbered t ds ++ if d.type = t then [(d, ds.length)] else [] := by
  rw [numbered_append, numbered_singleton]
  split <;> rfl

theorem numbered_cons (t : HostType) (d : Declaration) (ds : List Declaration) :
    numbered t (d :: ds) = (if d.type = t then [(d, 0)] else []) ++
      (numbered t ds).map (Prod.map id (1 + ·)) := by
  rw [← List.singleton_append, numbered_append, numbered_singleton]
  rfl

/-- Where there is no declaration of a type there is none to number. -/
theorem numbered_eq_nil (h : ∀ d ∈ ds, d.type ≠ t) : numbered t ds = [] := by
  refine List.filter_eq_nil_iff.mpr fun e he htype => ?_
  exact h e.1 (List.mem_of_getElem? (List.mem_zipIdx_iff_getElem?.mp he))
    (of_decide_eq_true htype)

/-- Where the numbers of one type correspond, so do its declarations. -/
theorem getElem?_of_numbered {a b : List Declaration} {σ : Equiv.Perm Nat}
    (h : numbered t b = (numbered t a).map (Prod.map id σ)) {i : Nat} (hi : a[i]? = some d)
    (ht : d.type = t) : b[σ i]? = some d := by
  have hmem : (d, σ i) ∈ numbered t b := by
    rw [h]
    exact List.mem_map.mpr ⟨(d, i), mem_numbered.mpr ⟨hi, ht⟩, rfl⟩
  exact (mem_numbered.mp hmem).1

end Declaration

/-! ## Permutations of positions -/

/-- The first position moves to position `k`, and what is in between moves up. -/
def carry (k : Nat) : Equiv.Perm Nat where
  toFun i := if i = 0 then k else if i ≤ k then i - 1 else i
  invFun j := if j < k then j + 1 else if j = k then 0 else j
  left_inv i := by
    rcases Nat.eq_zero_or_pos i with hi | hi
    · simp [hi]
    · by_cases hk : i ≤ k
      · simp only [Nat.ne_of_gt hi, hk, if_false, if_true]
        rw [if_pos (by omega), Nat.sub_add_cancel hi]
      · simp only [Nat.ne_of_gt hi, hk, if_false]
        rw [if_neg (by omega), if_neg (by omega)]
  right_inv j := by
    rcases Nat.lt_trichotomy j k with hj | rfl | hj
    · simp only [hj, if_true]
      rw [if_neg (by omega), if_pos (by omega), Nat.add_sub_cancel]
    · simp
    · dsimp only
      rw [if_neg (Nat.lt_asymm hj), if_neg (Nat.ne_of_gt hj), if_neg (by omega),
        if_neg (Nat.not_le_of_lt hj)]

theorem carry_before {k i : Nat} (h : i < k) : carry k (1 + i) = i := by
  show (if 1 + i = 0 then k else if 1 + i ≤ k then 1 + i - 1 else 1 + i) = i
  rw [if_neg (by omega), if_pos (by omega), Nat.add_sub_cancel_left]

theorem carry_after {k i : Nat} (h : k ≤ i) : carry k (1 + i) = 1 + i := by
  show (if 1 + i = 0 then k else if 1 + i ≤ k then 1 + i - 1 else 1 + i) = 1 + i
  rw [if_neg (by omega), if_neg (by omega)]

/-- The first position stays, and the rest is permuted. -/
def afterFirst (σ : Equiv.Perm Nat) : Equiv.Perm Nat where
  toFun i := if i = 0 then 0 else 1 + σ (i - 1)
  invFun j := if j = 0 then 0 else 1 + σ.symm (j - 1)
  left_inv i := by
    by_cases h : i = 0
    · simp [h]
    · simp only [h, if_false]
      rw [if_neg (by omega), Nat.add_sub_cancel_left, σ.symm_apply_apply]
      omega
  right_inv j := by
    by_cases h : j = 0
    · simp [h]
    · simp only [h, if_false]
      rw [if_neg (by omega), Nat.add_sub_cancel_left, σ.apply_symm_apply]
      omega

theorem afterFirst_add (σ : Equiv.Perm Nat) (i : Nat) :
    afterFirst σ (1 + i) = 1 + σ i := by
  show (if 1 + i = 0 then 0 else 1 + σ (1 + i - 1)) = 1 + σ i
  rw [if_neg (by omega), Nat.add_sub_cancel_left]

/-- The permutation takes the positions of `a` to those of `b`, each to the position of
the same declaration, and keeps the order of declarations on behalf of one type. -/
structure Shuffles (σ : Equiv.Perm Nat) (a b : List Declaration) : Prop where
  length : b.length = a.length
  fixed : ∀ {i}, a.length ≤ i → σ i = i
  numbered : ∀ t, Declaration.numbered t b =
    (Declaration.numbered t a).map (Prod.map id σ)

namespace Shuffles

variable {σ : Equiv.Perm Nat} {a b before : List Declaration} {d : Declaration}

theorem nil : Shuffles (Equiv.refl Nat) [] [] := ⟨rfl, fun _ => rfl, fun _ => rfl⟩

/-- Once the first position is carried past `before`, what was there is back where it was,
and the rest has moved on by one. -/
theorem numbered_carried (h : Shuffles σ a (before ++ b)) (t : HostType) :
    Declaration.numbered t before ++
      (Declaration.numbered t b).map (Prod.map id fun i => before.length + (1 + i)) =
    (Declaration.numbered t a).map (Prod.map id fun i => carry before.length (1 + σ i)) := by
  have hcarried := congrArg (List.map (Prod.map id fun i => carry before.length (1 + i)))
    (h.numbered t)
  rw [Declaration.numbered_append, List.map_append, List.map_map, List.map_map] at hcarried
  refine Eq.trans (congrArg₂ _ ?_ ?_) hcarried
  · refine ((List.map_congr_left fun e he => ?_).trans (List.map_id _)).symm
    obtain ⟨hlt, -⟩ := List.getElem?_eq_some_iff.mp (Declaration.mem_numbered.mp he).1
    exact Prod.ext rfl (carry_before hlt)
  · refine List.map_congr_left fun e _ => Prod.ext rfl ?_
    show before.length + (1 + e.2) = carry before.length (1 + (before.length + e.2))
    rw [carry_after (Nat.le_add_right _ _)]
    omega

/-- A declaration comes first in one list, and in the other after some of other types. -/
theorem cons (h : Shuffles σ a (before ++ b)) (hbefore : ∀ d' ∈ before, d'.type ≠ d.type) :
    Shuffles ((afterFirst σ).trans (carry before.length)) (d :: a) (before ++ d :: b) where
  length := by
    have := h.length
    simp only [List.length_append, List.length_cons] at this ⊢
    omega
  fixed {i} hi := by
    have hlength := h.length
    rw [List.length_append] at hlength
    rw [List.length_cons] at hi
    obtain ⟨j, rfl⟩ : ∃ j, i = 1 + j := ⟨i - 1, by omega⟩
    rw [Equiv.trans_apply, afterFirst_add, h.fixed (by omega), carry_after (by omega)]
  numbered t := by
    have hshift : (Declaration.numbered t (d :: a)).map
        (Prod.map id ((afterFirst σ).trans (carry before.length))) =
        (if d.type = t then [(d, before.length)] else []) ++
          (Declaration.numbered t a).map (Prod.map id fun i => carry before.length (1 + σ i)) := by
      rw [Declaration.numbered_cons, List.map_append, List.map_map]
      refine congrArg₂ _ ?_ (List.map_congr_left fun e _ => Prod.ext rfl ?_)
      · split <;> rfl
      · exact congrArg (carry before.length) (afterFirst_add σ e.2)
    rw [hshift, ← h.numbered_carried, Declaration.numbered_append, Declaration.numbered_cons,
      List.map_append, ← List.append_assoc, ← List.append_assoc, List.map_map]
    refine congrArg₂ _ ?_ rfl
    by_cases hd : d.type = t
    · have hnone : Declaration.numbered t before = [] :=
        Declaration.numbered_eq_nil fun d' hd' => hd ▸ hbefore d' hd'
      simp [hnone, hd]
    · simp [hd]

/-- Lists that agree on every type are shuffles of each other. -/
theorem exists_of_same {b : List Declaration}
    (h : ∀ t, a.filter (fun d => d.type = t) = b.filter fun d => d.type = t) :
    ∃ σ, Shuffles σ a b := by
  induction a generalizing b with
  | nil =>
      cases b with
      | nil => exact ⟨_, nil⟩
      | cons d b => simpa using h d.type
  | cons d a ih =>
      have hd := h d.type
      rw [List.filter_cons_of_pos (by simp), eq_comm, List.filter_eq_cons_iff] at hd
      obtain ⟨before, rest, rfl, hbefore, -, hrest⟩ := hd
      simp only [decide_eq_true_eq] at hbefore
      have hsame : ∀ t, a.filter (fun d => d.type = t) =
          (before ++ rest).filter fun d => d.type = t := by
        intro t
        by_cases ht : d.type = t
        · have hnone : before.filter (fun d => d.type = t) = [] :=
            List.filter_eq_nil_iff.mpr fun d' hd' htype =>
              hbefore d' hd' ((of_decide_eq_true htype).trans ht.symm)
          rw [List.filter_append, hnone, List.nil_append, ← ht, hrest]
        · have := h t
          rw [List.filter_append, List.filter_cons_of_neg (by simpa using ht),
            List.filter_cons_of_neg (by simpa using ht)] at this
          rw [this, List.filter_append]
      obtain ⟨σ, hσ⟩ := ih hsame
      exact ⟨_, hσ.cons hbefore⟩

end Shuffles

end SchemaGraph
