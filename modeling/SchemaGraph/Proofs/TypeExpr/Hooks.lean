import SchemaGraph.Proofs.TypeExpr.Layers

/-!
# Hooks compose

The hook of a nested type is built from the hook of its base, one layer after the other: a list
applies what it has to every element, a nullable type keeps it away from null. What comes out is
one recursion over the type, `mapBase`, for every nesting of the two and for any function at the
base.

Seen from a value, there is one position for each way through its lists. At full depth, that is
through as many lists as the type has, the base is applied, unless there is a null and the
innermost list is one of nullable elements; above that depth lists keep their length and their
order, and what is no list stays as it is. And the base sees nothing else.
-/

set_option autoImplicit false

namespace SchemaGraph

namespace TypeExpr

variable {h : Resolved → Resolved} {r x : Resolved}

/-- Map the base of a type through its layers: every element of a list of either kind, and
everything but null where the type is nullable. -/
def mapBase : TypeExpr → (Resolved → Resolved) → Resolved → Resolved
  | .list item, h, r =>
    match r.items? with
    | some items => .list (items.map (mapBase item h))
    | none => r
  | .nullable inner, h, r => if r.isNull then r else mapBase inner h r
  | _, h, r => h r

/-- The base of the type has the value `x` at the position `p` of `r`: that is at full depth,
and no nullable layer covers it. -/
structure BaseAt (t : TypeExpr) (r : Resolved) (p : List Nat) (x : Resolved) : Prop where
  depth : p.length = t.lists
  value : r.at? p = some x
  uncovered : x.isNull = true → (t.under t.lists).isNullable = false

/-- What mapping the base of `t` by `h` makes of `r`, position by position. -/
structure MapsTo (t : TypeExpr) (h : Resolved → Resolved) (r r' : Resolved) : Prop where
  base : ∀ p x, t.BaseAt r p x → r'.at? p = some (h x)
  covered : ∀ p x, p.length = t.lists → r.at? p = some x → x.isNull = true →
    (t.under t.lists).isNullable = true → r'.at? p = some x
  lists : ∀ p x items, p.length < t.lists → r.at? p = some x → x.items? = some items →
    ∃ items', r'.at? p = some (.list items') ∧ items'.length = items.length
  others : ∀ p x, p.length < t.lists → r.at? p = some x → x.items? = none → r'.at? p = some x
  absent : ∀ p, p.length ≤ t.lists → r.at? p = none → r'.at? p = none
  /-- The base is applied nowhere else. -/
  only : ∀ h', (∀ p x, t.BaseAt r p x → h' x = h x) → t.mapBase h' r = r'

/-! ## One layer -/

theorem mapBase_list {item : TypeExpr} : (TypeExpr.list item).mapBase h r =
    match r.items? with
    | some items => .list (items.map (item.mapBase h))
    | none => r := rfl

theorem mapBase_nullable {inner : TypeExpr} : (TypeExpr.nullable inner).mapBase h r =
    if r.isNull then r else inner.mapBase h r := rfl

theorem mapBase_list_of_items {item : TypeExpr} {items : List Resolved}
    (hitems : r.items? = some items) :
    (TypeExpr.list item).mapBase h r = .list (items.map (item.mapBase h)) := by
  rw [mapBase_list, hitems]

theorem mapBase_nullable_of_isNull {inner : TypeExpr} (hnull : r.isNull = true) :
    (TypeExpr.nullable inner).mapBase h r = r := by
  rw [mapBase_nullable, if_pos hnull]

theorem mapBase_nullable_of_not_isNull {inner : TypeExpr} (hnull : r.isNull = false) :
    (TypeExpr.nullable inner).mapBase h r = inner.mapBase h r := by
  rw [mapBase_nullable, if_neg (by simp [hnull])]

/-- A type with lists around it leaves alone what is no list. -/
theorem mapBase_of_not_items {t : TypeExpr} (hlists : 0 < t.lists) (hitems : r.items? = none) :
    t.mapBase h r = r := by
  induction t with
  | ref _ | scalar _ | enum _ | union _ => cases hlists
  | list item ih => rw [mapBase_list, hitems]
  | nullable inner ih =>
      cases hnull : r.isNull with
      | true => rw [mapBase_nullable_of_isNull hnull]
      | false => rw [mapBase_nullable_of_not_isNull hnull, ih hlists]

/-- A type with lists around it keeps the length of a list. -/
theorem mapBase_of_items {t : TypeExpr} {items : List Resolved} (hlists : 0 < t.lists)
    (hitems : r.items? = some items) :
    ∃ items', t.mapBase h r = .list items' ∧ items'.length = items.length := by
  induction t with
  | ref _ | scalar _ | enum _ | union _ => cases hlists
  | list item ih => exact ⟨_, mapBase_list_of_items hitems, List.length_map _⟩
  | nullable inner ih =>
      have hnull : r.isNull = false := by
        cases hnull : r.isNull with
        | false => rfl
        | true => rw [Resolved.items?_of_isNull hnull] at hitems; cases hitems
      rw [mapBase_nullable_of_not_isNull hnull]
      exact ih hlists

/-- With no list around it a type applies its base, but not to a null that is covered. -/
theorem mapBase_of_no_lists {t : TypeExpr} (hlists : t.lists = 0) :
    t.mapBase h r = if r.isNull ∧ t.isNullable then r else h r := by
  induction t with
  | ref _ | scalar _ | enum _ | union _ =>
      rw [if_neg fun hcovered => Bool.noConfusion hcovered.2]
      rfl
  | list item ih => cases hlists
  | nullable inner ih =>
      cases hnull : r.isNull with
      | true => simp [mapBase_nullable_of_isNull hnull, isNullable]
      | false => simp [mapBase_nullable_of_not_isNull hnull, ih hlists, hnull]

/-! ## All layers -/

/-- Down to full depth, each position is mapped as the type under that many lists says. -/
theorem at?_mapBase (t : TypeExpr) :
    ∀ {p : List Nat} {r : Resolved}, p.length ≤ t.lists →
      (t.mapBase h r).at? p = (r.at? p).map ((t.under p.length).mapBase h) := by
  induction t with
  | ref _ | scalar _ | enum _ | union _ =>
      intro p r hp
      obtain rfl := List.length_eq_zero_iff.mp (Nat.le_zero.mp hp)
      rfl
  | list item ih =>
      intro p r hp
      cases p with
      | nil => rfl
      | cons i q =>
          rw [lists, List.length_cons] at hp
          cases hitems : r.items? with
          | none =>
              rw [mapBase_of_not_items (lists_list_pos item) hitems, Resolved.at?_cons_none hitems]
              rfl
          | some items =>
              have hmapped : (Resolved.list (items.map (item.mapBase h))).items? =
                  some (items.map (item.mapBase h)) := rfl
              rw [mapBase_list_of_items hitems, Resolved.at?_cons_some hitems,
                Resolved.at?_cons_some hmapped, List.getElem?_map]
              cases items[i]? with
              | none => rfl
              | some y => exact ih (by omega)
  | nullable inner ih =>
      intro p r hp
      cases p with
      | nil => rfl
      | cons i q =>
          cases hnull : r.isNull with
          | true =>
              have hnone := Resolved.at?_cons_none (Resolved.items?_of_isNull hnull) i q
              rw [mapBase_nullable_of_isNull hnull, hnone]
              rfl
          | false =>
              rw [mapBase_nullable_of_not_isNull hnull]
              exact ih hp

/-- A value that is not null is mapped below a nullable layer as it is without that layer. -/
theorem BaseAt.nullable {inner : TypeExpr} {p : List Nat} (hnull : r.isNull = false)
    (hx : inner.BaseAt r p x) : (TypeExpr.nullable inner).BaseAt r p x := by
  refine ⟨hx.depth, hx.value, fun hxnull => ?_⟩
  cases hlists : inner.lists with
  | zero =>
      obtain rfl := List.length_eq_zero_iff.mp (hx.depth.trans hlists)
      rw [show x = r from (Option.some.inj hx.value).symm, hnull] at hxnull
      cases hxnull
  | succ n =>
      have huncovered := hx.uncovered hxnull
      rw [hlists] at huncovered
      rw [lists, hlists, under_nullable]
      exact huncovered

/-- Only what the base does where it is applied counts. -/
theorem mapBase_congr (t : TypeExpr) {h' : Resolved → Resolved} :
    ∀ {r : Resolved}, (∀ p x, t.BaseAt r p x → h' x = h x) → t.mapBase h' r = t.mapBase h r := by
  induction t with
  | ref _ | scalar _ | enum _ | union _ => exact fun hh => hh [] _ ⟨rfl, rfl, fun _ => rfl⟩
  | list item ih =>
      intro r hh
      cases hitems : r.items? with
      | none =>
          rw [mapBase_of_not_items (lists_list_pos item) hitems,
            mapBase_of_not_items (lists_list_pos item) hitems]
      | some items =>
          rw [mapBase_list_of_items hitems, mapBase_list_of_items hitems]
          congr 1
          refine List.map_congr_left fun y hy => ?_
          obtain ⟨i, hi⟩ := List.mem_iff_getElem?.mp hy
          refine ih fun q x hx => hh (i :: q) x ⟨?_, ?_, hx.uncovered⟩
          · rw [List.length_cons, hx.depth, lists]
          · rw [Resolved.at?_cons_some hitems, hi, Option.bind_some, hx.value]
  | nullable inner ih =>
      intro r hh
      cases hnull : r.isNull with
      | true => rw [mapBase_nullable_of_isNull hnull, mapBase_nullable_of_isNull hnull]
      | false =>
          rw [mapBase_nullable_of_not_isNull hnull, mapBase_nullable_of_not_isNull hnull]
          exact ih fun p x hx => hh p x (hx.nullable hnull)

/-- Mapping the base does at every position what it should. -/
theorem mapsTo_mapBase (t : TypeExpr) (h : Resolved → Resolved) (r : Resolved) :
    t.MapsTo h r (t.mapBase h r) := by
  have hfull : (t.under t.lists).lists = 0 := by rw [lists_under, Nat.sub_self]
  have habove : ∀ {p : List Nat}, p.length < t.lists → 0 < (t.under p.length).lists := by
    intro p hp
    rw [lists_under]
    omega
  refine ⟨fun p x hx => ?_, fun p x hp hx hnull hcovered => ?_, fun p x items hp hx hitems => ?_,
    fun p x hp hx hitems => ?_, fun p hp habsent => ?_, fun h' hh' => t.mapBase_congr hh'⟩
  · rw [t.at?_mapBase (Nat.le_of_eq hx.depth), hx.value, hx.depth, Option.map_some,
      mapBase_of_no_lists hfull, if_neg]
    rintro ⟨hnull, hcovered⟩
    rw [hx.uncovered hnull] at hcovered
    cases hcovered
  · rw [t.at?_mapBase (Nat.le_of_eq hp), hx, hp, Option.map_some, mapBase_of_no_lists hfull,
      if_pos ⟨hnull, hcovered⟩]
  · obtain ⟨items', hmap, hlength⟩ := mapBase_of_items (h := h) (habove hp) hitems
    exact ⟨items', by rw [t.at?_mapBase (Nat.le_of_lt hp), hx, Option.map_some, hmap], hlength⟩
  · rw [t.at?_mapBase (Nat.le_of_lt hp), hx, Option.map_some,
      mapBase_of_not_items (habove hp) hitems]
  · rw [t.at?_mapBase hp, habsent, Option.map_none]

/-- The hook of a type is the hook of its base, mapped through the layers. -/
theorem hook?_eq_map (t : TypeExpr) : t.hook? = t.core.hook?.map t.mapBase := by
  induction t with
  | ref _ | enum _ | union _ => rfl
  | scalar d => exact (Option.map_id_apply (x := d.hook?)).symm
  | list item ih =>
      rw [core, hook?, ih, Option.map_map]
      congr 1
      funext h r
      exact Resolved.mapItems_eq _ r
  | nullable inner ih =>
      rw [core, hook?, ih, Option.map_map]
      rfl

/-- Hooks compose structurally: a type has a hook if its base has one, this hook is the
recursion over the type, and at every position of every value it does what the layers on the
way say, whatever is at the base. -/
theorem hook?_composes (t : TypeExpr) :
    t.hook? = t.core.hook?.map t.mapBase ∧ ∀ h r, t.MapsTo h r (t.mapBase h r) :=
  ⟨t.hook?_eq_map, t.mapsTo_mapBase⟩

end TypeExpr

end SchemaGraph
