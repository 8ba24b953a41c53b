import Mathlib.Data.List.Perm.Subperm
import Mathlib.Logic.Relation
import SchemaGraph.FieldCall
import SchemaGraph.Proofs.OrderedMap

/-!
# Looking along links

A value of some type is looked for along the links of a lineage, and the search is given
up after as many steps as there are links. Up to then it has come through more host types
than have links, if it has not been through one of them twice. So a search is given up
exactly when it is in a circle, and then it would have been given up after any number of
steps; in all other cases the steps it is allowed make no difference.

What a search does depends on the host types it comes through and not on the value, so a
circle is one of host types: `Climbs` is a single step, up the link of a type that is not
the one asked for.
-/

set_option autoImplicit false

namespace SchemaGraph

namespace Lineage

variable {l : Lineage} {wanted : HostType} {v : HostValue}

/-- A link leads from one host type to the other. -/
def Next (l : Lineage) (t p : HostType) : Prop :=
  ∃ link, l.find? t = some link ∧ link.parent = p

/-- A step of a search: from a type that is not the one asked for, along a link by which
its values can be seen as values of the other. -/
def Climbs (l : Lineage) (wanted t p : HostType) : Prop :=
  t ≠ wanted ∧ ∃ link, l.find? t = some link ∧ link.child = t ∧ link.parent = p

/-- A search from here gets into a circle. -/
def Circles (l : Lineage) (wanted t : HostType) : Prop :=
  ∃ u, Relation.ReflTransGen (l.Climbs wanted) t u ∧ Relation.TransGen (l.Climbs wanted) u u

theorem Climbs.next {t p : HostType} (h : l.Climbs wanted t p) : l.Next t p := by
  obtain ⟨-, link, hlink, -, hp⟩ := h
  exact ⟨link, hlink, hp⟩

theorem Climbs.mem_keys {t p : HostType} (h : l.Climbs wanted t p) : t ∈ l.keys := by
  obtain ⟨-, link, hlink, -⟩ := h
  exact OrderedMap.mem_keys_iff.mpr (OrderedMap.contains_of_find? hlink)

/-- Where there are no circles of links, no search gets into one. -/
theorem not_circles (h : ∀ t, ¬ Relation.TransGen l.Next t t) (t : HostType) :
    ¬ l.Circles wanted t := by
  rintro ⟨u, -, hu⟩
  exact h u (Relation.TransGen.mono (fun _ _ => Climbs.next) u u hu)

/-- What gets into a circle does so by way of its next step. -/
theorem Circles.step {t : HostType} (h : l.Circles wanted t) :
    ∃ p, l.Climbs wanted t p ∧ l.Circles wanted p := by
  obtain ⟨u, hreach, hloop⟩ := h
  rcases Relation.ReflTransGen.cases_head hreach with rfl | ⟨p, hclimb, hrest⟩
  · obtain ⟨p, hclimb, hback⟩ := Relation.TransGen.head'_iff.mp hloop
    exact ⟨p, hclimb, t, hback, hloop⟩
  · exact ⟨p, hclimb, u, hrest, hloop⟩

theorem Circles.of_step {t p : HostType} (hclimb : l.Climbs wanted t p)
    (h : l.Circles wanted p) : l.Circles wanted t := by
  obtain ⟨u, hreach, hloop⟩ := h
  exact ⟨u, .head hclimb hreach, hloop⟩

/-! ## Steps

There are three kinds of places that a search can be at: it has found what it looks for,
it can take a step, or it can do neither. -/

theorem places (l : Lineage) (wanted t : HostType) :
    t = wanted ∨ (∃ p, l.Climbs wanted t p) ∨ t ≠ wanted ∧ ∀ p, ¬ l.Climbs wanted t p := by
  by_cases hfound : t = wanted
  · exact Or.inl hfound
  by_cases hstep : ∃ p, l.Climbs wanted t p
  · exact Or.inr (Or.inl hstep)
  · exact Or.inr (Or.inr ⟨hfound, not_exists.mp hstep⟩)

theorem follow_zero_eq (t : HostType) : l.follow wanted 0 v t =
    if v.type = wanted then .found v
    else if ((l.find? t).bind (·.upcast v)).isNone then .absent else .endless := rfl

theorem follow_succ_eq (steps : Nat) (t : HostType) : l.follow wanted (steps + 1) v t =
    if v.type = wanted then .found v
    else match l.find? t with
      | none => .absent
      | some link => match link.upcast v with
        | none => .absent
        | some v => l.follow wanted steps v link.parent := rfl

theorem follow_found (h : v.type = wanted) (steps : Nat) :
    l.follow wanted steps v v.type = .found v := by
  cases steps with
  | zero => rw [follow_zero_eq, if_pos h]
  | succ steps => rw [follow_succ_eq, if_pos h]

theorem follow_zero {p : HostType} (h : l.Climbs wanted v.type p) :
    l.follow wanted 0 v v.type = .endless := by
  obtain ⟨hne, link, hlink, hchild, -⟩ := h
  rw [follow_zero_eq, if_neg hne, hlink, Option.bind_some, Extends.upcast, if_pos hchild.symm]
  rfl

theorem follow_succ {p : HostType} (h : l.Climbs wanted v.type p) (steps : Nat) :
    l.follow wanted (steps + 1) v v.type = l.follow wanted steps (v.seenAs p) p := by
  obtain ⟨hne, link, hlink, hchild, hp⟩ := h
  rw [follow_succ_eq, if_neg hne, hlink]
  simp only [Extends.upcast, if_pos hchild.symm, hp]

theorem follow_absent (hne : v.type ≠ wanted) (h : ∀ p, ¬ l.Climbs wanted v.type p)
    (steps : Nat) : l.follow wanted steps v v.type = .absent := by
  have hstop : ∀ link, l.find? v.type = some link → link.upcast v = none := by
    intro link hlink
    rw [Extends.upcast, if_neg]
    exact fun hchild => h link.parent ⟨hne, link, hlink, hchild.symm, rfl⟩
  cases steps with
  | zero =>
      rw [follow_zero_eq, if_neg hne]
      cases hlink : l.find? v.type with
      | none => rfl
      | some link => rw [Option.bind_some, hstop link hlink]; rfl
  | succ steps =>
      rw [follow_succ_eq, if_neg hne]
      cases hlink : l.find? v.type with
      | none => rfl
      | some link => simp only [hstop link hlink]

/-- What is given up was about to take a step. -/
theorem climbs_of_endless {steps : Nat} (h : l.follow wanted steps v v.type = .endless) :
    ∃ p, l.Climbs wanted v.type p := by
  rcases l.places wanted v.type with hfound | hstep | ⟨hne, hstop⟩
  · rw [follow_found hfound] at h
    cases h
  · exact hstep
  · rw [follow_absent hne hstop] at h
    cases h

/-! ## Searches that are given up -/

/-- A search that is given up has got into a circle. `path` is what it has come through;
as all of it has links, it cannot be longer than the lineage. -/
theorem circles_of_endless {steps : Nat} : ∀ {v : HostValue} {path : List HostType},
    path.Nodup → (∀ t ∈ path, t ∈ l.keys ∧ Relation.TransGen (l.Climbs wanted) t v.type) →
      l.size ≤ steps + path.length → l.follow wanted steps v v.type = .endless →
      l.Circles wanted v.type := by
  induction steps with
  | zero =>
      intro v path hnd hpath hsize hendless
      obtain ⟨p, hclimb⟩ := climbs_of_endless hendless
      by_cases hmem : v.type ∈ path
      · exact ⟨v.type, .refl, (hpath _ hmem).2⟩
      · have hkeys : v.type :: path ⊆ l.keys :=
          List.cons_subset.mpr ⟨hclimb.mem_keys, fun t ht => (hpath t ht).1⟩
        have hlength :=
          (List.subperm_of_subset (List.nodup_cons.mpr ⟨hmem, hnd⟩) hkeys).length_le
        rw [List.length_cons, OrderedMap.keys, List.length_map] at hlength
        rw [OrderedMap.size] at hsize
        omega
  | succ steps ih =>
      intro v path hnd hpath hsize hendless
      obtain ⟨p, hclimb⟩ := climbs_of_endless hendless
      by_cases hmem : v.type ∈ path
      · exact ⟨v.type, .refl, (hpath _ hmem).2⟩
      · rw [follow_succ hclimb] at hendless
        have hpath' : ∀ t ∈ v.type :: path,
            t ∈ l.keys ∧ Relation.TransGen (l.Climbs wanted) t p := by
          intro t ht
          rcases List.mem_cons.mp ht with rfl | ht
          · exact ⟨hclimb.mem_keys, .single hclimb⟩
          · exact ⟨(hpath t ht).1, (hpath t ht).2.tail hclimb⟩
        have hsize' : l.size ≤ steps + (v.type :: path).length := by
          rw [List.length_cons]
          omega
        have hnd' : (v.type :: path).Nodup := List.nodup_cons.mpr ⟨hmem, hnd⟩
        exact .of_step hclimb (@ih (v.seenAs p) _ hnd' hpath' hsize' hendless)

/-- In a circle a search is given up whatever it is allowed. -/
theorem follow_of_circles {steps : Nat} : ∀ {v : HostValue}, l.Circles wanted v.type →
    l.follow wanted steps v v.type = .endless := by
  induction steps with
  | zero =>
      intro v h
      obtain ⟨p, hclimb, -⟩ := h.step
      exact follow_zero hclimb
  | succ steps ih =>
      intro v h
      obtain ⟨p, hclimb, hp⟩ := h.step
      rw [follow_succ hclimb]
      exact ih hp

/-- Only in a circle is a search given up. -/
theorem circles_of_view (h : l.view wanted v = .endless) : l.Circles wanted v.type :=
  circles_of_endless List.nodup_nil (by simp) (Nat.le_refl _) h

theorem view_of_circles (h : l.Circles wanted v.type) : l.view wanted v = .endless :=
  follow_of_circles h

/-- More steps do not change the end of a search. -/
theorem follow_add {steps : Nat} (more : Nat) : ∀ {v : HostValue},
    l.follow wanted steps v v.type ≠ .endless →
      l.follow wanted (steps + more) v v.type = l.follow wanted steps v v.type := by
  induction steps with
  | zero =>
      intro v hends
      rcases l.places wanted v.type with hfound | ⟨p, hclimb⟩ | ⟨hne, hstop⟩
      · rw [follow_found hfound, follow_found hfound]
      · exact absurd (follow_zero hclimb) hends
      · rw [follow_absent hne hstop, follow_absent hne hstop]
  | succ steps ih =>
      intro v hends
      rcases l.places wanted v.type with hfound | ⟨p, hclimb⟩ | ⟨hne, hstop⟩
      · rw [follow_found hfound, follow_found hfound]
      · rw [follow_succ hclimb] at hends
        rw [Nat.add_right_comm, follow_succ hclimb, follow_succ hclimb]
        exact @ih (v.seenAs p) hends
      · rw [follow_absent hne hstop, follow_absent hne hstop]

/-- A search that gets into no circle has come to its end when it is over. -/
theorem follow_eq_view (h : ¬ l.Circles wanted v.type) (more : Nat) :
    l.follow wanted (l.size + more) v v.type = l.view wanted v :=
  follow_add more fun hendless => h (circles_of_view hendless)

end Lineage

/-! ## Parents of calls -/

namespace FieldCall

variable {call : FieldCall}

/-- The parent of the call is found or missed, whatever type it is asked for as. -/
def Returns (call : FieldCall) : Prop :=
  ∀ t, (∃ v, call.parentAs t = .ok v) ∨
    call.parentAs t = .error (.unexpectedParent call.field t.shortName)

/-- From an instance the search goes along the lineage. -/
theorem parentAs_of_instance {i : Instance} (hparent : call.parent = .instance i)
    (t : HostType) : call.parentAs t =
      match call.lineage.view t i.value with
      | .found v => .ok v
      | .absent => .error (.unexpectedParent call.field t.shortName)
      | .endless => .error (.endless i.type.shortName) := by
  rw [parentAs, hparent]
  rfl

theorem parentAs_of_found {i : Instance} {t : HostType} {v : HostValue}
    (hparent : call.parent = .instance i) (h : call.lineage.view t i.value = .found v) :
    call.parentAs t = .ok v := by
  rw [parentAs_of_instance hparent, h]

theorem parentAs_of_absent {i : Instance} {t : HostType}
    (hparent : call.parent = .instance i) (h : call.lineage.view t i.value = .absent) :
    call.parentAs t = .error (.unexpectedParent call.field t.shortName) := by
  rw [parentAs_of_instance hparent, h]

theorem parentAs_of_endless {i : Instance} {t : HostType}
    (hparent : call.parent = .instance i) (h : call.lineage.view t i.value = .endless) :
    call.parentAs t = .error (.endless i.type.shortName) := by
  rw [parentAs_of_instance hparent, h]

/-- A call returns unless its parent is an instance from which a search gets into a
circle. -/
theorem returns_iff : call.Returns ↔ ∀ i, call.parent = .instance i →
    ∀ t, ¬ call.lineage.Circles t i.type := by
  constructor
  · intro h i hparent t hcircles
    have hendless := parentAs_of_endless hparent (Lineage.view_of_circles hcircles)
    rcases h t with ⟨v, hv⟩ | habsent
    · rw [hendless] at hv
      cases hv
    · rw [hendless] at habsent
      cases habsent
  · intro h t
    cases hparent : call.parent with
    | none => exact Or.inr (by rw [parentAs, hparent]; rfl)
    | value _ => exact Or.inr (by rw [parentAs, hparent]; rfl)
    | «instance» i =>
        cases hview : call.lineage.view t i.value with
        | found v => exact Or.inl ⟨v, parentAs_of_found hparent hview⟩
        | absent => exact Or.inr (parentAs_of_absent hparent hview)
        | endless => exact absurd (Lineage.circles_of_view hview) (h i hparent t)

end FieldCall

end SchemaGraph
