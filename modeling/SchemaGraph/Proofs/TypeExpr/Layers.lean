import SchemaGraph.TypeExpr.Basic
import SchemaGraph.Compiled.TypeRef

/-!
# The layers of a type

A type expression is a base under layers of list and nullable, in any order. The list layers
are what counts: they are in the reference and in the values, and between two of them a type is
either nullable or not, however many nullable layers there are. So a type is read from the
outside, one list after the other, and so are the references and the answers that go with it.
-/

set_option autoImplicit false

namespace SchemaGraph

namespace TypeExpr

/-- The type under all lists and nullables. -/
def core : TypeExpr → TypeExpr
  | .list item => core item
  | .nullable inner => core inner
  | e => e

/-- How many lists there are around the base. -/
def lists : TypeExpr → Nat
  | .list item => lists item + 1
  | .nullable inner => lists inner
  | _ => 0

/-- What the outermost list is a list of. -/
def item : TypeExpr → TypeExpr
  | .list e => e
  | .nullable inner => item inner
  | e => e

/-- The type under the outermost `n` lists, with the nullables that are on it. -/
def under : TypeExpr → Nat → TypeExpr
  | e, 0 => e
  | e, n + 1 => under e.item n

theorem lists_list_pos (e : TypeExpr) : 0 < (TypeExpr.list e).lists := Nat.succ_pos _

theorem lists_item (e : TypeExpr) : e.item.lists = e.lists - 1 := by
  induction e with
  | ref _ | scalar _ | enum _ | union _ => rfl
  | list e _ => exact (Nat.add_sub_cancel e.lists 1).symm
  | nullable inner ih => exact ih

theorem lists_under (e : TypeExpr) (n : Nat) : (e.under n).lists = e.lists - n := by
  induction n generalizing e with
  | zero => rfl
  | succ n ih =>
      rw [under, ih, lists_item]
      omega

theorem under_nullable (e : TypeExpr) (n : Nat) :
    (TypeExpr.nullable e).under (n + 1) = e.under (n + 1) := rfl

theorem core_ne_nested (e : TypeExpr) :
    (∀ item, e.core ≠ .list item) ∧ ∀ inner, e.core ≠ .nullable inner := by
  induction e with
  | list item ih => exact ih
  | nullable inner ih => exact ih
  | ref _ | scalar _ | enum _ | union _ => exact ⟨nofun, nofun⟩

end TypeExpr

namespace TypeRef

/-- How many lists there are around the name. -/
def lists : TypeRef → Nat
  | .named _ => 0
  | .list item => lists item + 1
  | .nonNull inner => lists inner

/-- What the outermost list is a list of. -/
def item : TypeRef → TypeRef
  | .named name => .named name
  | .list t => t
  | .nonNull inner => item inner

/-- The reference under the outermost `n` lists, with the mark that is on it. -/
def under : TypeRef → Nat → TypeRef
  | t, 0 => t
  | t, n + 1 => under t.item n

end TypeRef

namespace Resolved

/-- The elements of a list of either kind. -/
def items? : Resolved → Option (List Resolved)
  | .list items => some items
  | .value (.list items) => some (items.map .value)
  | _ => none

theorem mapItems_eq (f : Resolved → Resolved) (r : Resolved) :
    r.mapItems f = match r.items? with
      | some items => .list (items.map f)
      | none => r := by
  cases r with
  | list items => rfl
  | «instance» i => rfl
  | value v =>
      cases v with
      | list items => simp [mapItems, items?, Function.comp_def]
      | null | bool _ | num _ | str _ | enum _ | binary _ | obj _ => rfl

theorem items?_of_isNull {r : Resolved} (h : r.isNull = true) : r.items? = none := by
  unfold isNull at h
  split at h
  · rfl
  · cases h

/-- The answer at a position, which says the index in each list on the way. -/
def at? (r : Resolved) : List Nat → Option Resolved
  | [] => some r
  | i :: p => (r.items?.bind fun items => items[i]?).bind fun x => at? x p

theorem at?_cons_some {r : Resolved} {items : List Resolved} (h : r.items? = some items)
    (i : Nat) (p : List Nat) : r.at? (i :: p) = items[i]?.bind fun x => x.at? p := by
  rw [at?, h, Option.bind_some]

theorem at?_cons_none {r : Resolved} (h : r.items? = none) (i : Nat) (p : List Nat) :
    r.at? (i :: p) = none := by
  rw [at?, h, Option.bind_none, Option.bind_none]

end Resolved

end SchemaGraph
