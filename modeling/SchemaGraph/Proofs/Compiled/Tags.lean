import Mathlib.Data.List.Lex
import SchemaGraph.Compiled.FieldResolver
import SchemaGraph.Proofs.TypeExpr.Layers

/-!
# Every answer is tagged, or none

An answer of an interface or union field comes in lists within lists, of two kinds, and only one
kind can hold instances. Both are split all the same, so what the table decides about is found
by going down through the elements: the leaves. A leaf the table knows, that is null or an
instance of a type in the table, gets its place in the result; the first one it does not know is
what the error is about. Nothing is said about the kinds of the lists, which is why the two
kinds go through one induction here.

Without a table nothing is decided, and nothing is lost: lists stay lists, instances stay
without a tag, and a plain value is passed on whole.

The conversion is written as a match with two branches that should never be taken, for an
answer that was given a tag and is no instance, and for a list that was not split. They are left
open in `branches`, and no matter what they hold it describes the conversion.
-/

set_option autoImplicit false

namespace SchemaGraph

section

variable {α β ε : Type} {f : α → Except ε β}

/-- Each element of a list that could be converted has its image in the same place. -/
theorem mapM_ok : ∀ {xs : List α} {ys : List β}, xs.mapM f = .ok ys →
    ys.length = xs.length ∧
      ∀ (i : Nat) x, xs[i]? = some x → ∃ y, ys[i]? = some y ∧ f x = .ok y
  | [], ys, h => by
      obtain rfl : [] = ys := Except.ok.inj h
      exact ⟨rfl, nofun⟩
  | x :: xs, ys, h => by
      rw [List.mapM_cons] at h
      cases hx : f x with
      | error e => rw [hx] at h; cases h
      | ok y =>
          cases hxs : xs.mapM f with
          | error e => rw [hx, hxs] at h; cases h
          | ok zs =>
              rw [hx, hxs] at h
              obtain rfl : y :: zs = ys := Except.ok.inj h
              obtain ⟨hlength, hmem⟩ := mapM_ok hxs
              refine ⟨congrArg (· + 1) hlength, fun i z hz => ?_⟩
              cases i with
              | zero =>
                  obtain rfl : x = z := Option.some.inj hz
                  exact ⟨y, rfl, hx⟩
              | succ i => exact hmem i z hz

/-- A list that could not be converted has a first element that could not. -/
theorem mapM_error {e : ε} : ∀ {xs : List α}, xs.mapM f = .error e →
    ∃ (i : Nat) (x : α), xs[i]? = some x ∧ f x = .error e ∧
      ∀ j < i, ∀ y, xs[j]? = some y → ∃ z, f y = .ok z
  | [], h => by cases h
  | x :: xs, h => by
      rw [List.mapM_cons] at h
      cases hx : f x with
      | error e' =>
          rw [hx] at h
          cases h
          exact ⟨0, x, rfl, hx, nofun⟩
      | ok y =>
          cases hxs : xs.mapM f with
          | ok zs => rw [hx, hxs] at h; cases h
          | error e' =>
              rw [hx, hxs] at h
              cases h
              obtain ⟨i, z, hz, hfails, hbefore⟩ := mapM_error hxs
              refine ⟨i + 1, z, hz, hfails, fun j hj w hw => ?_⟩
              cases j with
              | zero =>
                  obtain rfl : x = w := Option.some.inj hw
                  exact ⟨y, hx⟩
              | succ j => exact hbefore j (Nat.lt_of_succ_lt_succ hj) w hw

end

namespace Resolved

variable {r x : Resolved} {items : List Resolved} {p : List Nat}

/-! ## Leaves -/

theorem sizeOf_lt_of_mem_items (hitems : r.items? = some items) (hx : x ∈ items) :
    sizeOf x < sizeOf r := by
  unfold items? at hitems
  split at hitems
  case h_1 =>
      cases hitems
      have := List.sizeOf_lt_of_mem hx
      simp only [Resolved.list.sizeOf_spec]
      omega
  case h_2 =>
      cases hitems
      obtain ⟨v, hv, rfl⟩ := List.mem_map.mp hx
      have := List.sizeOf_lt_of_mem hv
      simp only [Resolved.value.sizeOf_spec, Value.list.sizeOf_spec]
      omega
  case h_3 => cases hitems

/-- Going down through the elements of lists, of whichever kind. -/
@[elab_as_elim]
theorem induct_items {motive : Resolved → Prop} (leaf : ∀ r, r.items? = none → motive r)
    (list : ∀ r items, r.items? = some items → (∀ x ∈ items, motive x) → motive r)
    (r : Resolved) : motive r := by
  cases hitems : r.items? with
  | none => exact leaf r hitems
  | some items => exact list r items hitems fun x hx => induct_items leaf list x
termination_by sizeOf r
decreasing_by exact sizeOf_lt_of_mem_items hitems hx

/-- There is `x` at the position `p` of `r`, and it is no list. -/
structure LeafAt (r : Resolved) (p : List Nat) (x : Resolved) : Prop where
  value : r.at? p = some x
  single : x.items? = none

theorem LeafAt.unique {y : Resolved} (hx : r.LeafAt p x) (hy : r.LeafAt p y) : x = y :=
  Option.some.inj (hx.value.symm.trans hy.value)

theorem leafAt_self (hitems : r.items? = none) : r.LeafAt [] r := ⟨rfl, hitems⟩

theorem leafAt_of_no_items (hitems : r.items? = none) :
    r.LeafAt p x ↔ p = [] ∧ x = r := by
  constructor
  · rintro ⟨hvalue, -⟩
    cases p with
    | nil => exact ⟨rfl, (Option.some.inj hvalue).symm⟩
    | cons i q =>
        rw [at?_cons_none hitems] at hvalue
        cases hvalue
  · rintro ⟨rfl, rfl⟩
    exact leafAt_self hitems

theorem leafAt_of_items (hitems : r.items? = some items) :
    r.LeafAt p x ↔ ∃ i q y, p = i :: q ∧ items[i]? = some y ∧ y.LeafAt q x := by
  constructor
  · rintro ⟨hvalue, hsingle⟩
    cases p with
    | nil =>
        obtain rfl : r = x := Option.some.inj hvalue
        rw [hitems] at hsingle
        cases hsingle
    | cons i q =>
        rw [at?_cons_some hitems] at hvalue
        obtain ⟨y, hy, hx⟩ := Option.bind_eq_some_iff.mp hvalue
        exact ⟨i, q, y, rfl, hy, hx, hsingle⟩
  · rintro ⟨i, q, y, rfl, hy, hx⟩
    exact ⟨by rw [at?_cons_some hitems, hy, Option.bind_some, hx.value], hx.single⟩

end Resolved

namespace Dispatch

variable {d : Dispatch} {r x : Resolved} {p : List Nat}

/-- What a table has a result for: null, and an instance of a type that it lists. -/
inductive Knows (d : Dispatch) : Resolved → Prop where
  | null : Knows d .null
  | «instance» (i : Instance) (name : String) :
      d.objectFor? i.type = some name → Knows d (.instance i)

/-- The first leaf of an answer that the table does not know. -/
structure FirstUnknown (d : Dispatch) (r : Resolved) (p : List Nat) (x : Resolved) :
    Prop where
  leaf : r.LeafAt p x
  unknown : ¬ d.Knows x
  first : ∀ q y, q < p → r.LeafAt q y → d.Knows y

theorem FirstUnknown.unique {p' : List Nat} {x' : Resolved} (h : d.FirstUnknown r p x)
    (h' : d.FirstUnknown r p' x') : x = x' := by
  rcases lt_trichotomy p p' with hlt | rfl | hlt
  · exact absurd (h'.first p x hlt h.leaf) h.unknown
  · exact h.leaf.unique h'.leaf
  · exact absurd (h.first p' x' hlt h'.leaf) h'.unknown

end Dispatch

namespace FieldValue

variable {d : Dispatch} {dispatch? : Option Dispatch} {r x : Resolved} {v : FieldValue}
  {items : List Resolved} {e : SchemaError}

/-- The elements of a list; a plain value is still one. -/
def items? : FieldValue → Option (List FieldValue)
  | .list items => some items
  | .value (.list items) => some (items.map .value)
  | _ => none

/-- What is at a position, which says the index in each list on the way. -/
def at? (v : FieldValue) : List Nat → Option FieldValue
  | [] => some v
  | i :: p => (v.items?.bind fun items => items[i]?).bind fun x => at? x p

theorem at?_cons_some {vs : List FieldValue} (h : v.items? = some vs) (i : Nat) (p : List Nat) :
    v.at? (i :: p) = vs[i]?.bind fun x => x.at? p := by
  rw [at?, h, Option.bind_some]

theorem at?_cons_none (h : v.items? = none) (i : Nat) (p : List Nat) : v.at? (i :: p) = none := by
  rw [at?, h, Option.bind_none, Option.bind_none]

/-- What the result has where the answer has `x`: under a table null, a tagged instance or a
list, and else the same as the answer. -/
inductive Stands : Option Dispatch → Resolved → FieldValue → Prop where
  | null (d : Dispatch) : Stands (some d) .null .null
  | tagged (d : Dispatch) (i : Instance) (name : String) :
      d.objectFor? i.type = some name → Stands (some d) (.instance i) (.tagged i name)
  | split (d : Dispatch) (x : Resolved) (items : List Resolved) (vs : List FieldValue) :
      x.items? = some items → vs.length = items.length → Stands (some d) x (.list vs)
  | value (v : Value) : Stands none (.value v) (.value v)
  | untagged (i : Instance) : Stands none (.instance i) (.instance i)
  | list (items : List Resolved) (vs : List FieldValue) :
      vs.length = items.length → Stands none (.list items) (.list vs)

/-- The result has the positions of the answer and no others, and at each what stands for what
the answer has there. -/
structure Shows (dispatch? : Option Dispatch) (r : Resolved) (v : FieldValue) : Prop where
  found : ∀ p x, r.at? p = some x → ∃ y, v.at? p = some y ∧ Stands dispatch? x y
  absent : ∀ p, r.at? p = none → v.at? p = none

theorem Shows.of_leaf (hitems : r.items? = none) (hvs : v.items? = none)
    (h : Stands dispatch? r v) : Shows dispatch? r v := by
  constructor
  · intro p x hx
    cases p with
    | nil =>
        obtain rfl : r = x := Option.some.inj hx
        exact ⟨v, rfl, h⟩
    | cons i q =>
        rw [Resolved.at?_cons_none hitems] at hx
        cases hx
  · intro p hp
    cases p with
    | nil => cases hp
    | cons i q => exact at?_cons_none hvs i q

theorem Shows.of_items {vs : List FieldValue} (hitems : r.items? = some items)
    (hvs : v.items? = some vs) (h : Stands dispatch? r v) (hlength : vs.length = items.length)
    (hshows : ∀ (i : Nat) x, items[i]? = some x → ∃ y, vs[i]? = some y ∧ Shows dispatch? x y) :
    Shows dispatch? r v := by
  constructor
  · intro p x hx
    cases p with
    | nil =>
        obtain rfl : r = x := Option.some.inj hx
        exact ⟨v, rfl, h⟩
    | cons i q =>
        rw [Resolved.at?_cons_some hitems] at hx
        obtain ⟨z, hz, hx⟩ := Option.bind_eq_some_iff.mp hx
        obtain ⟨w, hw, hzw⟩ := hshows i z hz
        obtain ⟨y, hy, hxy⟩ := hzw.found q x hx
        exact ⟨y, by rw [at?_cons_some hvs, hw, Option.bind_some, hy], hxy⟩
  · intro p hp
    cases p with
    | nil => cases hp
    | cons i q =>
        rw [Resolved.at?_cons_some hitems] at hp
        rw [at?_cons_some hvs]
        cases hz : items[i]? with
        | none =>
            rw [List.getElem?_eq_none_iff.mpr
              (hlength ▸ List.getElem?_eq_none_iff.mp hz), Option.bind_none]
        | some z =>
            obtain ⟨w, hw, hzw⟩ := hshows i z hz
            rw [hz, Option.bind_some] at hp
            rw [hw, Option.bind_some]
            exact hzw.absent q hp

/-! ## Under a table -/

theorem ofAbstractItems_eq_mapM (d : Dispatch) (items : List Resolved) :
    ofAbstractItems d items = items.mapM (ofAbstract d) := by
  induction items with
  | nil => rfl
  | cons r rest ih =>
      rw [ofAbstractItems, ih, List.mapM_cons]
      cases ofAbstract d r with
      | error e => rfl
      | ok v => cases rest.mapM (ofAbstract d) <;> rfl

theorem ofAbstractValues_eq_mapM (d : Dispatch) (vs : List Value) :
    ofAbstractValues d vs = (vs.map Resolved.value).mapM (ofAbstract d) := by
  induction vs with
  | nil => rfl
  | cons v rest ih =>
      rw [ofAbstractValues, ih, List.map_cons, List.mapM_cons]
      change _ = ofAbstractValue d v >>= _
      cases ofAbstractValue d v with
      | error e => rfl
      | ok v => cases (rest.map Resolved.value).mapM (ofAbstract d) <;> rfl

/-- A list of either kind is split. -/
theorem ofAbstract_of_items (hitems : r.items? = some items) :
    ofAbstract d r = (items.mapM (ofAbstract d)).map .list := by
  unfold Resolved.items? at hitems
  split at hitems
  case h_1 =>
      cases hitems
      rw [ofAbstract, ofAbstractItems_eq_mapM]
  case h_2 =>
      cases hitems
      rw [ofAbstract, ofAbstractValue, ofAbstractValues_eq_mapM]
  case h_3 => cases hitems

theorem ofAbstract_of_knows (hknows : d.Knows r) : ∃ v, ofAbstract d r = .ok v ∧
    v.items? = none ∧ Stands (some d) r v := by
  cases hknows with
  | null => exact ⟨.null, rfl, rfl, .null d⟩
  | «instance» i name hname =>
      exact ⟨.tagged i name, by simp [ofAbstract, Dispatch.resolveType, hname, Except.map], rfl,
        .tagged d i name hname⟩

theorem ofAbstract_of_not_knows (hitems : r.items? = none) (hknows : ¬ d.Knows r) :
    ofAbstract d r = .error (d.unresolved r.runtimeTypeName) := by
  cases r with
  | list items => cases hitems
  | «instance» i =>
      cases hname : d.objectFor? i.type with
      | some name => exact absurd (.instance i name hname) hknows
      | none => simp [ofAbstract, Dispatch.resolveType, hname, Except.map]
  | value v =>
      cases v with
      | null => exact absurd .null hknows
      | list items => cases hitems
      | bool _ | num _ | str _ | enum _ | binary _ | obj _ => rfl

/-- A result has a place for every leaf, and all of them were known. -/
theorem shows_of_ofAbstract_eq_ok (r : Resolved) : ∀ {v : FieldValue}, ofAbstract d r = .ok v →
    (∀ p x, r.LeafAt p x → d.Knows x) ∧ Shows (some d) r v := by
  induction r using Resolved.induct_items with
  | leaf r hitems =>
      intro v hv
      have hknows : d.Knows r := by
        by_contra hunknown
        rw [ofAbstract_of_not_knows hitems hunknown] at hv
        cases hv
      obtain ⟨w, hw, hvs, hstands⟩ := ofAbstract_of_knows hknows
      obtain rfl : w = v := Except.ok.inj (hw.symm.trans hv)
      refine ⟨fun p x hx => ?_, .of_leaf hitems hvs hstands⟩
      obtain ⟨-, rfl⟩ := (Resolved.leafAt_of_no_items hitems).mp hx
      exact hknows
  | list r items hitems ih =>
      intro v hv
      rw [ofAbstract_of_items hitems] at hv
      cases hvs : items.mapM (ofAbstract d) with
      | error e => rw [hvs] at hv; cases hv
      | ok vs =>
          rw [hvs] at hv
          obtain rfl : FieldValue.list vs = v := Except.ok.inj hv
          obtain ⟨hlength, helement⟩ := mapM_ok hvs
          constructor
          · intro p x hx
            obtain ⟨i, q, y, -, hy, hx⟩ := (Resolved.leafAt_of_items hitems).mp hx
            obtain ⟨w, -, hw⟩ := helement i y hy
            exact (ih y (List.mem_of_getElem? hy) hw).1 q x hx
          · refine .of_items hitems rfl (.split d r items vs hitems hlength) hlength
              fun i y hy => ?_
            obtain ⟨w, hvw, hw⟩ := helement i y hy
            exact ⟨w, hvw, (ih y (List.mem_of_getElem? hy) hw).2⟩

/-- An error is about the first leaf that is not known. -/
theorem firstUnknown_of_ofAbstract_eq_error (r : Resolved) :
    ofAbstract d r = .error e →
      ∃ p x, d.FirstUnknown r p x ∧ e = d.unresolved x.runtimeTypeName := by
  induction r using Resolved.induct_items with
  | leaf r hitems =>
      intro he
      have hunknown : ¬ d.Knows r := by
        intro hknows
        obtain ⟨v, hv, -⟩ := ofAbstract_of_knows hknows
        rw [hv] at he
        cases he
      rw [ofAbstract_of_not_knows hitems hunknown] at he
      exact ⟨[], r, ⟨Resolved.leafAt_self hitems, hunknown,
        fun q y hq => absurd hq (List.not_lt_nil q)⟩, (Except.error.inj he).symm⟩
  | list r items hitems ih =>
      intro he
      rw [ofAbstract_of_items hitems] at he
      cases hvs : items.mapM (ofAbstract d) with
      | ok vs => rw [hvs] at he; cases he
      | error e' =>
          rw [hvs] at he
          obtain rfl : e' = e := Except.error.inj he
          obtain ⟨i, y, hy, hfails, hbefore⟩ := mapM_error hvs
          obtain ⟨q, x, hx, rfl⟩ := ih y (List.mem_of_getElem? hy) hfails
          refine ⟨i :: q, x, ⟨(Resolved.leafAt_of_items hitems).mpr ⟨i, q, y, rfl, hy, hx.leaf⟩,
            hx.unknown, fun q' x' hlt hx' => ?_⟩, rfl⟩
          obtain ⟨j, q', z, rfl, hz, hx'⟩ := (Resolved.leafAt_of_items hitems).mp hx'
          rcases List.cons_lt_cons_iff.mp hlt with hj | ⟨rfl, hlt'⟩
          · -- an element before the one that failed
            obtain ⟨w, hw⟩ := hbefore j hj z hz
            exact (shows_of_ofAbstract_eq_ok z hw).1 q' x' hx'
          · obtain rfl : y = z := Option.some.inj (hy.symm.trans hz)
            exact hx.first q' x' hlt' hx'

theorem ofAbstract_ok_iff (d : Dispatch) (r : Resolved) :
    (∃ v, ofAbstract d r = .ok v) ↔ ∀ p x, r.LeafAt p x → d.Knows x := by
  refine ⟨fun ⟨v, hv⟩ => (shows_of_ofAbstract_eq_ok r hv).1, fun hknows => ?_⟩
  cases hv : ofAbstract d r with
  | ok v => exact ⟨v, rfl⟩
  | error e =>
      obtain ⟨p, x, hx, -⟩ := firstUnknown_of_ofAbstract_eq_error r hv
      exact absurd (hknows p x hx.leaf) hx.unknown

theorem ofAbstract_error_iff (d : Dispatch) (r : Resolved) (e : SchemaError) :
    ofAbstract d r = .error e ↔
      ∃ p x, d.FirstUnknown r p x ∧ e = d.unresolved x.runtimeTypeName := by
  refine ⟨firstUnknown_of_ofAbstract_eq_error r, ?_⟩
  rintro ⟨p, x, hx, rfl⟩
  cases hv : ofAbstract d r with
  | ok v => exact absurd ((shows_of_ofAbstract_eq_ok r hv).1 p x hx.leaf) hx.unknown
  | error e =>
      obtain ⟨p', x', hx', rfl⟩ := firstUnknown_of_ofAbstract_eq_error r hv
      rw [hx.unique hx']

/-! ## Without a table -/

theorem ofConcreteItems_eq_map (items : List Resolved) :
    ofConcreteItems items = items.map ofConcrete := by
  induction items with
  | nil => rfl
  | cons r rest ih => rw [ofConcreteItems, ih, List.map_cons]

theorem items?_ofConcrete (r : Resolved) :
    (ofConcrete r).items? = r.items?.map (·.map ofConcrete) := by
  cases r with
  | «instance» i => rfl
  | list items => exact congrArg some (ofConcreteItems_eq_map items)
  | value v =>
      cases v with
      | list vs =>
          exact congrArg some (List.map_map (f := Resolved.value) (g := ofConcrete) (l := vs)).symm
      | null | bool _ | num _ | str _ | enum _ | binary _ | obj _ => rfl

theorem stands_ofConcrete (r : Resolved) : Stands none r (ofConcrete r) := by
  cases r with
  | value v => exact .value v
  | «instance» i => exact .untagged i
  | list items =>
      exact .list items _ (by rw [ofConcreteItems_eq_map, List.length_map])

theorem shows_ofConcrete (r : Resolved) : Shows none r (ofConcrete r) := by
  induction r using Resolved.induct_items with
  | leaf r hitems =>
      exact .of_leaf hitems (by rw [items?_ofConcrete, hitems, Option.map_none])
        (stands_ofConcrete r)
  | list r items hitems ih =>
      have hvs : (ofConcrete r).items? = some (items.map ofConcrete) := by
        rw [items?_ofConcrete, hitems, Option.map_some]
      refine .of_items hitems hvs (stands_ofConcrete r) (List.length_map _) fun i x hx => ?_
      exact ⟨ofConcrete x, by rw [List.getElem?_map, hx, Option.map_some],
        ih x (List.mem_of_getElem? hx)⟩

/-! ## The branches -/

/-- The branches of the conversion in their order, with `self` for the conversion of elements.
Two of them are left open: an answer has a tag and is no instance, or a list was not split. -/
def branches (self : Resolved → Except SchemaError FieldValue)
    (unfit unsplit : Resolved → Except SchemaError FieldValue) (dispatch? : Option Dispatch) :
    Resolved → Except SchemaError FieldValue
  | .value .null => .ok .null
  | .list items => (items.mapM self).map .list
  | r =>
    match dispatch?, r with
    | some _, .value (.list items) => (items.mapM fun v => self (.value v)).map .list
    | some d, r => do
      let name ← d.resolveType r
      match r with
      | .instance i => return .tagged i name
      | r => unfit r
    | none, .instance i => return .instance i
    | none, .value v => return .value v
    | none, r => unsplit r

/-- The open branches are never taken: they may hold anything. -/
theorem ofResolved_eq_branches (unfit unsplit : Resolved → Except SchemaError FieldValue)
    (dispatch? : Option Dispatch) (r : Resolved) :
    ofResolved dispatch? r =
      branches (ofResolved dispatch?) unfit unsplit dispatch? r := by
  cases dispatch? with
  | none =>
      cases r with
      | «instance» i => rfl
      | list items =>
          have hmap : items.mapM (ofResolved none) = .ok (items.map ofConcrete) :=
            List.mapM_pure (m := Except SchemaError)
          rw [branches, hmap, ← ofConcreteItems_eq_map]
          rfl
      | value v => cases v <;> rfl
  | some d =>
      cases r with
      | «instance» i =>
          change (d.resolveType (.instance i)).map _ = d.resolveType (.instance i) >>= _
          cases d.resolveType (.instance i) <;> rfl
      | list items => exact ofAbstract_of_items rfl
      | value v =>
          cases v with
          | list items =>
              refine (ofAbstract_of_items rfl).trans ?_
              rw [List.mapM_map]
              rfl
          | null | bool _ | num _ | str _ | enum _ | binary _ | obj _ => rfl

end FieldValue

namespace FieldResolver

/-- Converting an answer is exact. Under a table it succeeds if and only if the table knows every
leaf, and else complains about the first that it does not know; without a table it succeeds. The
result shows the whole answer, tagged under a table and as it is without one. And the branches
for an answer that is neither, or for a list that was not split, may hold anything. -/
theorem fieldValue_exact (f : FieldResolver) (r : Resolved) :
    (match f.dispatch? with
      | some d =>
        ((∃ v, f.fieldValue r = .ok v) ↔ ∀ p x, r.LeafAt p x → d.Knows x) ∧
        ∀ e, f.fieldValue r = .error e ↔
          ∃ p x, d.FirstUnknown r p x ∧ e = d.unresolved x.runtimeTypeName
      | none => ∃ v, f.fieldValue r = .ok v) ∧
    (∀ v, f.fieldValue r = .ok v → FieldValue.Shows f.dispatch? r v) ∧
    ∀ unfit unsplit, f.fieldValue r =
      FieldValue.branches f.fieldValue unfit unsplit f.dispatch? r := by
  refine ⟨?_, ?_, fun unfit unsplit => FieldValue.ofResolved_eq_branches unfit unsplit _ r⟩
  · unfold fieldValue
    cases f.dispatch? with
    | none => exact ⟨_, rfl⟩
    | some d => exact ⟨FieldValue.ofAbstract_ok_iff d r, FieldValue.ofAbstract_error_iff d r⟩
  · unfold fieldValue
    cases f.dispatch? with
    | none =>
        rintro v ⟨⟩
        exact FieldValue.shows_ofConcrete r
    | some d => exact fun v hv => (FieldValue.shows_of_ofAbstract_eq_ok r hv).2

end FieldResolver

namespace Pets

def dog : Instance := .sealed ⟨⟨"app::Dog"⟩, .null, []⟩

def owner : Instance := .sealed ⟨⟨"app::Owner"⟩, .null, []⟩

/-- A field that answers pets, of which there are only dogs. -/
def pets : FieldResolver where
  field := "pets"
  explicit? := none
  hook? := none
  arguments := .none
  dispatch? := some ⟨"Pet", .interface, [(⟨"app::Dog"⟩, "Dog")]⟩
  lineage := .empty

/-- A dog, and a list of nothing. -/
def litter : Resolved := .list [.instance dog, .value (.list [.null])]

theorem litter_shown :
    FieldValue.Shows pets.dispatch? litter (.list [.tagged dog "Dog", .list [.null]]) :=
  (pets.fieldValue_exact litter).2.1 _ rfl

example : pets.fieldValue (.list [litter, .instance owner, .value (.bool true)]) =
    .error (.unresolvedImplementation "Pet" "Owner") := by
  cbv

end Pets

end SchemaGraph
