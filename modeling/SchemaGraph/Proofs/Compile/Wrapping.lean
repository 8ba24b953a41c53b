import SchemaGraph.Proofs.Compile.Instances
import SchemaGraph.Proofs.TypeExpr.Hooks

/-!
# References show their layers

Whether a reference is required is decided twice over: by what is asked for where the type is
compiled, which is always for a required element and never for a required type below a nullable
layer, and by the outermost layer of the type. The dispatch table and the hook take different
ways through the layers, the one handed on from the base and the other read off the type at
each layer.

What comes out says at each depth whether the type is nullable there, and nothing else about
nullable layers: a type and its collapsed form, where no nullable layer is next to another, are
compiled alike. The types of optional data and sequences are a case of this.
-/

set_option autoImplicit false

namespace SchemaGraph

/-! ## Layers of a reference -/

/-- A reference to the type of this name, under as many lists as said. At each depth it is
required unless the type is nullable there, and on the outside only if that was asked for. -/
structure TypeRef.Wraps (t : TypeRef) (base : String) (depth : Nat) (nullableAt : Nat → Bool)
    (nonNull : Bool) : Prop where
  name : t.coreName = base
  lists : t.lists = depth
  required : ∀ n ≤ depth,
    (t.under n).isNonNull = true ↔ nullableAt n = false ∧ (n = 0 → nonNull = true)
  once : ∀ n inner, t.under n ≠ .nonNull (.nonNull inner)

namespace TypeExpr

/-- The name of the base. -/
def coreName? (r : Registry) : TypeExpr → Option String
  | .ref t =>
    match r.getNode t with
    | .ok id => some (r.node id).displayName
    | .error _ => none
  | .scalar d => some d.name
  | .enum d => some d.name
  | .union d => some d.name
  | .list item => coreName? r item
  | .nullable inner => coreName? r inner

/-- Whether there is nothing around the base. -/
def IsBase (t : TypeExpr) : Prop := t.lists = 0 ∧ t.isNullable = false

/-- Repeated nullable layers made one. -/
def collapse : TypeExpr → TypeExpr
  | .list item => .list (collapse item)
  | .nullable inner =>
    if (collapse inner).isNullable then collapse inner else .nullable (collapse inner)
  | t => t

end TypeExpr

/-- The reference shows the layers of the type; it has a dispatch table if the base is abstract,
and the hook of the type, which is there if the base has one. -/
structure CompiledRef.Shows (r : Registry) (t : TypeExpr) (nonNull : Bool) (c : CompiledRef) :
    Prop where
  typeRef : ∃ name, t.coreName? r = some name ∧
    c.typeRef.Wraps name t.lists (fun n => (t.under n).isNullable) nonNull
  dispatch : c.dispatch?.isSome = true ↔
    t.coreKind? r = some .interface ∨ t.coreKind? r = some .union
  hook : c.hook? = t.hook?
  hooked : c.hook?.isSome = t.core.hook?.isSome

variable {r : Registry} {enter : NodeId → CompileM Unit} {s s' : CompileState}

namespace TypeRef.Wraps

theorem under_named (name : String) : ∀ n, (TypeRef.named name).under n = .named name
  | 0 => rfl
  | n + 1 => under_named name n

/-- Under the first list there is no mark of the outside left. -/
theorem mark_under (t : TypeRef) (n : Nat) :
    (TypeRef.nonNull t).under (n + 1) = t.under (n + 1) := rfl

/-- A name without a list around it. -/
theorem named (name : String) (nullableAt : Nat → Bool) (nonNull : Bool)
    (h : nullableAt 0 = false) :
    (if nonNull then TypeRef.nonNull (.named name) else .named name).Wraps name 0 nullableAt
      nonNull := by
  cases nonNull with
  | false =>
      refine ⟨rfl, rfl, fun n hn => ?_, fun n inner => ?_⟩
      · obtain rfl := Nat.le_zero.mp hn
        simp [under, isNonNull]
      · simp [under_named]
  | true =>
      refine ⟨rfl, rfl, fun n hn => ?_, fun n inner => ?_⟩
      · obtain rfl := Nat.le_zero.mp hn
        simp [under, isNonNull, h]
      · cases n with
        | zero => simp [under]
        | succ n => simp [mark_under, under_named]

/-- Around a required element there is a list. -/
theorem list {t : TypeRef} {base : String} {depth : Nat} {nullableAt : Nat → Bool}
    (ht : t.Wraps base depth (fun n => nullableAt (n + 1)) true) (nonNull : Bool)
    (h : nullableAt 0 = false) :
    (if nonNull then TypeRef.nonNull (.list t) else .list t).Wraps base (depth + 1) nullableAt
      nonNull := by
  have hunder : ∀ n, (if nonNull then TypeRef.nonNull (.list t) else .list t).under (n + 1) =
      t.under n := by
    intro n
    cases nonNull <;> rfl
  refine ⟨?_, ?_, fun n hn => ?_, fun n inner => ?_⟩
  · cases nonNull <;> exact ht.name
  · cases nonNull <;> exact congrArg (· + 1) ht.lists
  · cases n with
    | zero => cases nonNull <;> simp [under, isNonNull, h]
    | succ n =>
        rw [hunder, ht.required n (by omega)]
        simp
  · cases n with
    | zero => cases nonNull <;> simp [under]
    | succ n =>
        rw [hunder]
        exact ht.once n inner

/-- A nullable type is one that nobody asks to be required. -/
theorem nullable {t : TypeRef} {base : String} {depth : Nat} {nullableAt : Nat → Bool}
    (ht : t.Wraps base depth nullableAt false) {nullableAt' : Nat → Bool} (nonNull : Bool)
    (h : nullableAt' 0 = true) (hsucc : ∀ n, nullableAt' (n + 1) = nullableAt (n + 1)) :
    t.Wraps base depth nullableAt' nonNull := by
  refine ⟨ht.name, ht.lists, fun n hn => ?_, ht.once⟩
  rw [ht.required n hn]
  cases n with
  | zero => simp [h]
  | succ n => simp [hsucc]

end TypeRef.Wraps

/-! ## Compiling a reference -/

namespace Compile

theorem require_eq (c : CompiledRef) (nonNull : Bool) :
    require c nonNull false =
      { c with typeRef := if nonNull then .nonNull c.typeRef else c.typeRef } := by
  cases nonNull <;> rfl

/-- A base on its own. -/
theorem shows_base {t : TypeExpr} {c : CompiledRef} {name : String} (nonNull : Bool)
    (hbase : t.IsBase) (hcore : t.core = t) (hname : t.coreName? r = some name)
    (href : c.typeRef = .named name) (hkind : t.coreKind? r = some c.kind)
    (hdispatch : c.dispatch?.isSome = true ↔ c.kind = .interface ∨ c.kind = .union)
    (hhook : c.hook? = t.hook?) : (require c nonNull false).Shows r t nonNull := by
  rw [require_eq, href]
  refine ⟨⟨name, hname, ?_⟩, ?_, hhook, by rw [hcore, ← hhook]⟩
  · rw [hbase.1]
    exact .named name _ nonNull hbase.2
  · rw [hkind, Option.some.injEq, Option.some.injEq]
    exact hdispatch

theorem nodeRef_shows {T : HostType} {id : NodeId} (hid : r.getNode T = .ok id) {c : CompiledRef}
    (h : nodeRef r enter id s = .ok c s') (nonNull : Bool) :
    (require c nonNull false).Shows r (.ref T) nonNull := by
  have hname : (TypeExpr.ref T).coreName? r = some (r.node id).displayName := by
    simp only [TypeExpr.coreName?, hid]
  have hkind : (TypeExpr.ref T).coreKind? r = (r.node id).namedKind? := by
    simp only [TypeExpr.coreKind?, hid]
  cases hn : r.node id with
  | object n =>
      simp only [nodeRef, hn, bind_eq_ok, pure_eq_ok] at h
      obtain ⟨_, _, -, rfl, -⟩ := h
      rw [hn] at hname hkind
      exact shows_base nonNull ⟨rfl, rfl⟩ rfl hname rfl hkind (by simp) rfl
  | interface n =>
      simp only [nodeRef, hn, bind_eq_ok, pure_eq_ok] at h
      obtain ⟨_, _, -, d, _, -, rfl, -⟩ := h
      rw [hn] at hname hkind
      exact shows_base nonNull ⟨rfl, rfl⟩ rfl hname rfl hkind (by simp) rfl
  | inputObject n =>
      simp only [nodeRef, hn, bind_eq_ok, pure_eq_ok] at h
      obtain ⟨_, _, -, rfl, -⟩ := h
      rw [hn] at hname hkind
      exact shows_base nonNull ⟨rfl, rfl⟩ rfl hname rfl hkind (by simp) rfl
  | field n | args n | arg n | inputField n | implement n =>
      simp only [nodeRef, hn] at h
      exact absurd h throw_ne_ok

/-- The hook that a type is compiled with is there if its base has one. -/
theorem hook?_isSome (t : TypeExpr) : t.hook?.isSome = t.core.hook?.isSome := by
  rw [t.hook?_eq_map, Option.isSome_map]

/-- Around an element that shows its layers a list does. -/
theorem shows_list {item : TypeExpr} {c : CompiledRef} (h : c.Shows r item true)
    (nonNull : Bool) :
    (require ⟨.list c.typeRef, c.kind, (TypeExpr.list item).hook?, c.dispatch?⟩ nonNull
      false).Shows r (.list item) nonNull := by
  obtain ⟨name, hname, hwraps⟩ := h.typeRef
  rw [require_eq]
  exact ⟨⟨name, hname, hwraps.list nonNull rfl⟩, h.dispatch, rfl, hook?_isSome (.list item)⟩

theorem shows_nullable {inner : TypeExpr} {c : CompiledRef} (h : c.Shows r inner false)
    (nonNull : Bool) :
    { c with hook? := (TypeExpr.nullable inner).hook? }.Shows r (.nullable inner) nonNull := by
  obtain ⟨name, hname, hwraps⟩ := h.typeRef
  exact ⟨⟨name, hname, hwraps.nullable nonNull rfl fun _ => rfl⟩, h.dispatch, rfl,
    hook?_isSome (.nullable inner)⟩

theorem expr_shows {t : TypeExpr} :
    ∀ {nonNull : Bool} {s s' : CompileState} {c : CompiledRef},
      expr r enter nonNull t s = .ok c s' → c.Shows r t nonNull := by
  induction t with
  | ref T =>
      intro nonNull s s' c h
      simp only [expr, bind_eq_ok, lift_eq_ok, pure_eq_ok] at h
      obtain ⟨id, _, ⟨hid, rfl⟩, c, _, hrun, rfl, -⟩ := h
      exact nodeRef_shows hid hrun nonNull
  | scalar d =>
      intro nonNull s s' c h
      simp only [expr, bind_eq_ok, pure_eq_ok] at h
      obtain ⟨_, _, -, rfl, -⟩ := h
      exact shows_base nonNull ⟨rfl, rfl⟩ rfl rfl rfl rfl (by simp) rfl
  | enum d =>
      intro nonNull s s' c h
      simp only [expr, bind_eq_ok, pure_eq_ok] at h
      obtain ⟨_, _, -, rfl, -⟩ := h
      exact shows_base nonNull ⟨rfl, rfl⟩ rfl rfl rfl rfl (by simp) rfl
  | union d =>
      intro nonNull s s' c h
      simp only [expr, bind_eq_ok, pure_eq_ok] at h
      obtain ⟨_, _, -, rfl, -⟩ := h
      exact shows_base nonNull ⟨rfl, rfl⟩ rfl rfl rfl rfl (by simp) rfl
  | list item ih =>
      intro nonNull s s' c h
      simp only [expr, bind_eq_ok, pure_eq_ok] at h
      obtain ⟨c, _, hrun, rfl, -⟩ := h
      exact shows_list (ih hrun) nonNull
  | nullable inner ih =>
      intro nonNull s s' c h
      simp only [expr, bind_eq_ok, pure_eq_ok] at h
      obtain ⟨c, _, hrun, rfl, -⟩ := h
      exact shows_nullable (ih hrun) nonNull

theorem link_shows {t : TypeExpr} {l : Link} (hl : r.link t = .ok l) {nonNull : Bool}
    {c : CompiledRef} (h : link r enter l nonNull s = .ok c s') : c.Shows r t nonNull := by
  cases t with
  | ref T =>
      obtain ⟨id, hid, rfl⟩ := Meaning.map_eq_ok.mp hl
      simp only [link, bind_eq_ok, pure_eq_ok] at h
      obtain ⟨c, _, hrun, rfl, -⟩ := h
      exact nodeRef_shows hid hrun nonNull
  | scalar _ | enum _ | union _ | list _ | nullable _ =>
      cases hl
      exact expr_shows (show expr r enter nonNull _ s = .ok c s' from h)

end Compile

/-! ## Repeated layers -/

namespace TypeExpr

/-- A second nullable layer adds nothing to the hook. -/
theorem hook?_nullable_nullable (t : TypeExpr) :
    (TypeExpr.nullable (.nullable t)).hook? = (TypeExpr.nullable t).hook? := by
  rw [hook?, hook?, Option.map_map]
  congr 1
  funext h x
  cases hnull : x.isNull <;> simp [hnull]

theorem hook?_nullable_of_isNullable {t : TypeExpr} (h : t.isNullable = true) :
    (TypeExpr.nullable t).hook? = t.hook? := by
  cases t with
  | nullable inner => exact hook?_nullable_nullable inner
  | ref _ | scalar _ | enum _ | union _ | list _ => cases h

theorem hook?_collapse (t : TypeExpr) : t.collapse.hook? = t.hook? := by
  induction t with
  | ref _ | scalar _ | enum _ | union _ => rfl
  | list item ih => rw [collapse, hook?, hook?, ih]
  | nullable inner ih =>
      have hinner : (TypeExpr.nullable inner.collapse).hook? = (TypeExpr.nullable inner).hook? := by
        rw [hook?, hook?, ih]
      rw [collapse, ← hinner]
      split
      · next h => exact (hook?_nullable_of_isNullable h).symm
      · rfl

end TypeExpr

namespace Compile

/-- A nullable layer around a nullable type changes nothing. -/
theorem expr_nullable_of_isNullable {t : TypeExpr} (h : t.isNullable = true) (nonNull : Bool) :
    expr r enter nonNull (.nullable t) = expr r enter nonNull t := by
  cases t with
  | nullable inner =>
      simp [expr, TypeExpr.hook?_nullable_nullable]
  | ref _ | scalar _ | enum _ | union _ | list _ => cases h

theorem expr_collapse (t : TypeExpr) :
    ∀ nonNull, expr r enter nonNull t.collapse = expr r enter nonNull t := by
  induction t with
  | ref _ | scalar _ | enum _ | union _ => exact fun _ => rfl
  | list item ih =>
      intro nonNull
      have hhook : (TypeExpr.list item.collapse).hook? = (TypeExpr.list item).hook? :=
        (TypeExpr.list item).hook?_collapse
      rw [TypeExpr.collapse, expr, expr, ih, hhook]
  | nullable inner ih =>
      intro nonNull
      have hinner : expr r enter nonNull (.nullable inner.collapse) =
          expr r enter nonNull (.nullable inner) := by
        rw [expr, expr, ih, TypeExpr.hook?, TypeExpr.hook?, inner.hook?_collapse]
      rw [TypeExpr.collapse, ← hinner]
      split
      · next h => exact (expr_nullable_of_isNullable h nonNull).symm
      · rfl

theorem link_collapse {t : TypeExpr} {l : Link} (hl : r.link t = .ok l) (nonNull : Bool) :
    ∃ l', r.link t.collapse = .ok l' ∧ link r enter l' nonNull = link r enter l nonNull := by
  cases t with
  | ref T => exact ⟨l, hl, rfl⟩
  | scalar d | enum d | union d => exact ⟨l, hl, rfl⟩
  | list item =>
      cases hl
      exact ⟨.given (.list item.collapse), rfl, expr_collapse (.list item) nonNull⟩
  | nullable inner =>
      cases hl
      have hnullable : (TypeExpr.nullable inner).collapse.isNullable = true := by
        rw [TypeExpr.collapse]
        split
        · assumption
        · rfl
      exact ⟨.given (TypeExpr.nullable inner).collapse, Registry.link_of_isNullable hnullable,
        expr_collapse (.nullable inner) nonNull⟩

end Compile

/-! ## Optional data and sequences -/

namespace NativeType

/-- How many sequences there are around the base. -/
def seqs : NativeType → Nat
  | .seq item => seqs item + 1
  | .option inner => seqs inner
  | _ => 0

/-- What the outermost sequence is a sequence of. -/
def item : NativeType → NativeType
  | .seq n => n
  | .option inner => item inner
  | n => n

/-- The type under the outermost `k` sequences. -/
def under : NativeType → Nat → NativeType
  | n, 0 => n
  | n, k + 1 => under n.item k

def isOption : NativeType → Bool
  | .option _ => true
  | _ => false

/-- The name of the scalar that the base becomes. -/
def scalarName : NativeType → String
  | .string => "String"
  | .bool => "Boolean"
  | .int32 => "Int"
  | .float64 => "Float"
  | .option inner => scalarName inner
  | .seq item => scalarName item

theorem infer_lists (n : NativeType) : n.infer.lists = n.seqs := by
  induction n with
  | string | bool | int32 | float64 => rfl
  | option inner ih => exact ih
  | seq item ih => exact congrArg (· + 1) ih

theorem infer_item (n : NativeType) : n.infer.item = n.item.infer := by
  induction n with
  | string | bool | int32 | float64 | seq _ _ => rfl
  | option inner ih => exact ih

theorem infer_under (n : NativeType) (k : Nat) : n.infer.under k = (n.under k).infer := by
  induction k generalizing n with
  | zero => rfl
  | succ k ih => rw [TypeExpr.under, under, infer_item, ih]

theorem infer_isNullable (n : NativeType) : n.infer.isNullable = n.isOption := by
  cases n <;> rfl

theorem infer_coreName? (n : NativeType) : n.infer.coreName? r = some n.scalarName := by
  induction n with
  | string | bool | int32 | float64 => rfl
  | option inner ih => exact ih
  | seq item ih => exact ih

theorem infer_coreKind? (n : NativeType) : n.infer.coreKind? r = some .scalar := by
  induction n with
  | string | bool | int32 | float64 => rfl
  | option inner ih => exact ih
  | seq item ih => exact ih

theorem infer_hook? (n : NativeType) : n.infer.hook? = none := by
  induction n with
  | string | bool | int32 | float64 => rfl
  | option inner ih => rw [infer, TypeExpr.hook?, ih, Option.map_none]
  | seq item ih => rw [infer, TypeExpr.hook?, ih, Option.map_none]

/-- Nothing can go wrong with a type that is known without declaration, and nothing has to be
kept for it. -/
theorem infer_compiles (n : NativeType) :
    ∀ nonNull, ∃ c, Compile.expr r enter nonNull n.infer s = .ok c s := by
  induction n with
  | string | bool | int32 | float64 => exact fun _ => ⟨_, rfl⟩
  | option inner ih =>
      intro nonNull
      obtain ⟨c, hc⟩ := ih false
      exact ⟨_, Compile.bind_eq_ok.mpr ⟨c, s, hc, rfl⟩⟩
  | seq item ih =>
      intro nonNull
      obtain ⟨c, hc⟩ := ih true
      exact ⟨_, Compile.bind_eq_ok.mpr ⟨c, s, hc, rfl⟩⟩

end NativeType

/-- A reference to a type that is known without declaration: one list for each sequence,
required but for optional data, and with neither dispatch table nor hook. -/
structure CompiledRef.ShowsNative (n : NativeType) (nonNull : Bool) (c : CompiledRef) : Prop where
  typeRef : c.typeRef.Wraps n.scalarName n.seqs (fun k => (n.under k).isOption) nonNull
  dispatch : c.dispatch? = none
  hook : c.hook? = none

theorem CompiledRef.Shows.native {n : NativeType} {nonNull : Bool} {c : CompiledRef}
    (h : c.Shows r n.infer nonNull) : c.ShowsNative n nonNull := by
  obtain ⟨name, hname, hwraps⟩ := h.typeRef
  rw [n.infer_coreName?, Option.some.injEq] at hname
  subst hname
  refine ⟨?_, ?_, h.hook.trans n.infer_hook?⟩
  · simpa only [n.infer_lists, n.infer_under, NativeType.infer_isNullable] using hwraps
  · have hdispatch := h.dispatch
    rw [n.infer_coreKind?] at hdispatch
    simpa using hdispatch

/-- References render exactly the declared wrapping: whatever a type is made of, and whatever
was compiled before, its reference shows its layers, its collapsed form is compiled in the same
way, and the types of optional data and sequences compile, and show theirs. -/
theorem Compile.type_shows (r : Registry) (nonNull : Bool) (s : CompileState) :
    (∀ t l c s', r.link t = .ok l → type r l nonNull s = .ok c s' → c.Shows r t nonNull) ∧
      (∀ t l, r.link t = .ok l → ∃ l', r.link t.collapse = .ok l' ∧
        type r l' nonNull = type r l nonNull) ∧
      ∀ n : NativeType, ∃ c, type r (.given n.infer) nonNull s = .ok c s ∧
        c.ShowsNative n nonNull := by
  refine ⟨fun t l c s' hl h => link_shows hl h, fun t l hl => link_collapse hl nonNull,
    fun n => ?_⟩
  obtain ⟨c, hc⟩ : ∃ c, expr r (enter r) nonNull n.infer s = .ok c s :=
    n.infer_compiles nonNull
  exact ⟨c, hc, (expr_shows hc).native⟩

/-- Lists of beings, which may be absent; that they may be is said twice. -/
def People.circles : TypeExpr := .list (.nullable (.nullable (.list (.ref being))))

/-- An interface under lists has its dispatch table, and no hook. -/
theorem People.circles_show : ∃ c s', Compile.type registry (.given circles) true {} = .ok c s' ∧
    c.Shows registry circles true ∧ c.dispatch?.isSome = true ∧ c.hook?.isSome = false := by
  obtain ⟨a, hask⟩ := Request.ask_of_isAnswered
    (show (Request.type (.given circles) true).isAnswered registry {} = true by decide +kernel)
  obtain ⟨c, hrun, -⟩ := Compile.map_eq_ok.mp hask
  have hshows := (Compile.type_shows registry true {}).1 circles (.given circles) c _ rfl hrun
  exact ⟨c, _, hrun, hshows, hshows.dispatch.mpr (Or.inl rfl), hshows.hooked⟩

end SchemaGraph
