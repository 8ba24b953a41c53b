import SchemaGraph.Proofs.Declared.Depth
import SchemaGraph.Proofs.Declared.Tidy

/-!
# The walk meets what is reachable

The walk from some roots leaves out exactly the types to which no references lead from
them. It fails only if something is broken that references lead to.

Nodes that are no types are walked again each time they are referred to, so that a walk
may be in a loop between two types and go on for ever. It is given up then, and for no
other reason: each type is met once, and between two of them a walk that is in no loop
is at no node twice.
-/

set_option autoImplicit false

namespace SchemaGraph

namespace Registry

variable {r : Registry} {id : NodeId}

/-! ## Reachable types -/

/-- The types that walks of a given depth do not meet. -/
def unreachableWithin (r : Registry) (depth : Nat) (roots : List NodeId) :
    Except SchemaError (List NodeId) :=
  (roots.foldlM (fun seen id => r.walk depth id seen) []).map fun seen =>
    r.schemaTypes.filter fun id => !seen.contains (r.node id).type

theorem unreachable_eq (r : Registry) (roots : List NodeId) :
    r.unreachable roots = r.unreachableWithin r.walkDepth roots := rfl

/-- The walk from the roots meets the types that are reachable from them. -/
theorem mem_reachable (hr : r.WellFormed) {depth : Nat} {roots : List NodeId} {seen : Seen}
    (h : roots.foldlM (fun seen id => r.walk depth id seen) [] = .ok seen) {id : NodeId}
    (hid : (r.node id).isSchemaType = true) :
    (r.node id).type ∈ seen ↔ r.ReachableFrom roots id := by
  have hwalk := (walk_visits hr depth).all roots
  constructor
  · intro hmem
    rcases hwalk.meets h _ hmem with hnone | ⟨root, other, hroot, hpath, hother, htype⟩
    · cases hnone
    · obtain rfl := hr.type_unique hother hid htype
      exact ⟨root, hroot, hpath⟩
  · rintro ⟨root, hroot, hpath⟩
    have hclosed : r.Closed seen [] := hwalk.closes h fun _ _ hmem => nomatch hmem
    cases (hwalk.covers h root hroot).reachable hclosed hpath with
    | type _ hmem => exact hmem
    | other hnot _ =>
        rw [hid] at hnot
        cases hnot

/-- References lead from the roots to a node that is no type, and from there back to it
without passing a type. -/
def Loops (r : Registry) (roots : List NodeId) : Prop :=
  ∃ id, r.ReachableFrom roots id ∧ Relation.TransGen r.Onward id id

theorem loops_of_givenUp (hr : r.WellFormed) {depth : Nat} (hdepth : r.walkDepth ≤ depth)
    {roots : List NodeId} {root : NodeId} (hroot : root ∈ roots) {seen : Seen}
    {e : SchemaError} (h : GivenUp (r.walk depth) root seen e) : r.Loops roots := by
  obtain ⟨⟨i, hreach, hloop⟩, -⟩ := h.endless hr hdepth
  exact ⟨i, ⟨root, hroot, hreach⟩, hloop⟩

/-- What is answered as unreachable are the types to which no references lead from the
roots, in the order of their declaration. If the answer is a failure, something reachable
is broken. This is so at whatever depth walks are given up, and therefore of a walk with
no such bound, if it comes to an end. At `walkDepth` and below only those are given up
that are in a loop. -/
theorem unreachable_exact (hr : r.Reached) (depth : Nat) (roots : List NodeId) :
    (∀ ids, r.unreachableWithin depth roots = .ok ids →
      ids.Sublist r.schemaTypes ∧ ids.Pairwise (· < ·) ∧
        ∀ id, id ∈ ids ↔ (r.node id).isSchemaType = true ∧ ¬ r.ReachableFrom roots id) ∧
    ∀ e, r.unreachableWithin depth roots = .error e →
      (∃ id, r.ReachableFrom roots id ∧ r.Broken id e) ∨
        e.isEndless = true ∧ (r.walkDepth ≤ depth → r.Loops roots) := by
  have hwf := hr.tidy.wellFormed
  constructor
  · intro ids h
    obtain ⟨seen, hseen, rfl⟩ := Meaning.map_eq_ok.mp h
    refine ⟨List.filter_sublist, hr.tidy.indexed.types.sublist List.filter_sublist, ?_⟩
    intro id
    rw [List.mem_filter, hwf.mem_schemaTypes]
    refine and_congr_right fun hid => ?_
    rw [Bool.not_eq_true', ← Bool.not_eq_true, List.contains_iff_mem,
      mem_reachable hwf hseen hid]
  · intro e h
    cases hseen : roots.foldlM (fun seen id => r.walk depth id seen) [] with
    | ok seen =>
        rw [unreachableWithin, hseen] at h
        cases h
    | error e' =>
        rw [unreachableWithin, hseen] at h
        cases h
        rcases ((walk_visits hwf depth).all roots).fails hseen with
          ⟨root, seen, hroot, -, hgiven⟩ | hfalse | ⟨root, id, hroot, hpath, hbroken⟩
        · exact Or.inr ⟨hgiven.1, fun hdepth => loops_of_givenUp hwf hdepth hroot hgiven⟩
        · exact hfalse.elim
        · exact Or.inl ⟨id, ⟨root, hroot, hpath⟩, hbroken⟩

end Registry

namespace Attic

def query : HostType := ⟨"Query"⟩

def user : HostType := ⟨"User"⟩

def attic : HostType := ⟨"Attic"⟩

/-- Nothing refers to the attic, and the attic refers to something that is not declared. -/
def registry : Registry := .ofDeclarations [
  .field user { name := "name", type? := some .string },
  .object user {},
  .field attic { name := "box", type? := some (.list (.ref ⟨"Box"⟩)) },
  .object attic {},
  .field query { name := "users", type? := some (.list (.ref user)) },
  .object query {}]

/-- From the query the attic is not reachable and the user is. From the attic, something
broken is. -/
theorem attic_unreachable :
    registry.unreachable [5] = .ok [3] ∧ ¬ registry.ReachableFrom [5] 3 ∧
      registry.ReachableFrom [5] 1 ∧ registry.unreachable [3] = .error (.notDeclared "Box") ∧
      ∃ id, registry.ReachableFrom [3] id ∧ registry.Broken id (.notDeclared "Box") := by
  have hr : registry.Reached := .ofDeclarations _
  have hmet : registry.unreachableWithin registry.walkDepth [5] = .ok [3] := rfl
  have hbroken : registry.unreachableWithin registry.walkDepth [3]
      = .error (.notDeclared "Box") := rfl
  obtain ⟨-, -, hexact⟩ := (Registry.unreachable_exact hr registry.walkDepth [5]).1 _ hmet
  rw [Registry.unreachable_eq, Registry.unreachable_eq]
  have hfails := (Registry.unreachable_exact hr registry.walkDepth [3]).2 _ hbroken
  refine ⟨hmet, ((hexact 3).mp (by simp)).2, ?_, hbroken,
    hfails.resolve_right fun h => nomatch h.1⟩
  by_contra hnot
  exact absurd ((hexact 1).mpr ⟨rfl, hnot⟩) (by simp)

end Attic

end SchemaGraph
