import SchemaGraph.Proofs.Input.Defaults
import SchemaGraph.Proofs.Schema.Mirrors

/-!
# Enum values there and back

An enum value goes in as a name and reaches the resolver as an internal value, which may be
any document but null, a list too. On the way out the output hook looks the name up again.
Both look for the first declared value that matches, so what comes back is what was sent as
long as no two declared values share a name or an internal value.

That carries over to any nesting of lists and nullables around the enum. The shape of an
argument forgets about the nullables and the hook puts them back as guards against null. The
lists that it meets are the ones of the type only: an internal value that is a list lies
below them, and is looked up as a whole. Of a list the hook makes a list of answers, whatever
kind of list it was, so the two kinds have to be identified again.
-/

set_option autoImplicit false

namespace SchemaGraph

/-! ## Answers as plain values -/

namespace Resolved

mutual

/-- The answer as a plain value, lists of answers being lists; instances are no values. -/
def plain? : Resolved → Option Value
  | .value v => some v
  | .instance _ => none
  | .list items => (plainItems? items).map .list
termination_by structural r => r

def plainItems? : List Resolved → Option (List Value)
  | [] => some []
  | r :: rest => do return (← plain? r) :: (← plainItems? rest)
termination_by structural items => items

end

theorem plainItems?_map {items : List Value} {f : Value → Resolved}
    (h : ∀ v ∈ items, (f v).plain? = some v) : plainItems? (items.map f) = some items := by
  induction items with
  | nil => rfl
  | cons v rest ih =>
      rw [List.map_cons, plainItems?, h v List.mem_cons_self,
        ih fun w hw => h w (List.mem_cons_of_mem v hw)]
      rfl

theorem eq_null_of_isNull {r : Resolved} (h : r.isNull = true) : r = null := by
  unfold isNull at h
  split at h
  · rfl
  · cases h

end Resolved

/-! ## Equality of documents -/

theorem Number.same_self (n : Number) : n.same n = true := by
  cases n <;> simp [same, Binary64.sameNumber]

namespace Json

mutual

theorem same_self : ∀ j : Json, j.same j = true
  | .null => rfl
  | .bool _ => by simp [same]
  | .num n => by rw [same, n.same_self]
  | .str _ => by simp [same]
  | .arr items => by rw [same, sameItems_self items]
  | .obj entries => by rw [same, sameEntries_self entries]

theorem sameItems_self : ∀ items : List Json, sameItems items items = true
  | [] => rfl
  | j :: rest => by rw [sameItems, same_self j, sameItems_self rest]; rfl

theorem sameEntries_self : ∀ entries : List (String × Json), sameEntries entries entries = true
  | [] => rfl
  | (k, j) :: rest => by
      rw [sameEntries, same_self j, sameEntries_self rest]
      simp

end

end Json

theorem Value.ofJsonItems_eq_map (items : List Json) : ofJsonItems items = items.map ofJson := by
  induction items with
  | nil => rfl
  | cons j rest ih => rw [ofJsonItems, ih, List.map_cons]

/-! ## Declared values -/

/-- Of things that are pairwise apart each is found by what sets it apart. -/
theorem find?_of_pairwise {α : Type} {p : α → α → Bool} {l : List α} {a : α}
    (hl : l.Pairwise fun b c => p b c = false) (ha : a ∈ l) (hself : p a a = true) :
    l.find? (fun b => p b a) = some a := by
  induction l with
  | nil => cases ha
  | cons b rest ih =>
      obtain ⟨hb, hrest⟩ := List.pairwise_cons.mp hl
      rcases List.mem_cons.mp ha with rfl | ha
      · exact List.find?_cons_of_pos (p := fun b => p b a) hself
      · rw [List.find?_cons, hb a ha]
        exact ih hrest ha

namespace EnumDef

/-- No two declared values have the same internal value, and none of them is null. -/
structure TellsApart (d : EnumDef) : Prop where
  apart : d.values.Pairwise fun v w => v.internal.same w.internal = false
  present : ∀ v ∈ d.values, v.internal.isNull = false

/-- Besides, no two declared values have the same name. -/
structure Distinct (d : EnumDef) : Prop extends d.TellsApart where
  names : (d.values.map (·.name)).Nodup

variable {d : EnumDef}

theorem TellsApart.nameOf?_internal (hd : d.TellsApart) {v : EnumValue} (hv : v ∈ d.values) :
    d.nameOf? v.internal = some v.name := by
  rw [nameOf?, find?_of_pairwise hd.apart hv (Json.same_self _), Option.map_some]

/-- The way out: an internal value becomes the name it was declared with. -/
theorem TellsApart.encode_internal (hd : d.TellsApart) {v : EnumValue} (hv : v ∈ d.values) :
    d.encode (.value (.ofJson v.internal)) = .value (.enum v.name) := by
  have hname := hd.nameOf?_internal hv
  rw [← Value.toJson_ofJson v.internal] at hname
  have hpresent := hd.present v hv
  cases hinternal : v.internal with
  | null => rw [hinternal] at hpresent; cases hpresent
  | bool _ | num _ | str _ | arr _ | obj _ =>
      rw [hinternal] at hname
      simp only [Value.ofJson] at hname ⊢
      simp only [encode, hname]

theorem internalOf?_name (hnames : (d.values.map (·.name)).Nodup) {v : EnumValue}
    (hv : v ∈ d.values) : d.internalOf? v.name = some v.internal := by
  have happart : d.values.Pairwise fun v w => decide (v.name = w.name) = false :=
    (List.pairwise_map.mp hnames).imp fun hne => decide_eq_false hne
  rw [internalOf?, find?_of_pairwise happart hv (decide_eq_true rfl), Option.map_some]

/-- The way in: a name becomes the internal value it was declared for. -/
theorem decode_name (hnames : (d.values.map (·.name)).Nodup) {v : EnumValue}
    (hv : v ∈ d.values) : d.decode v.name = v.internal := by
  rw [decode, internalOf?_name hnames hv, Option.getD_some]

@[simp]
theorem encode_null : d.encode .null = .null := rfl

/-- A raw value that fits a type over the enum: a list where the type is a list, a declared
name where it is the enum, and null anywhere. -/
inductive Fits (d : EnumDef) : TypeExpr → Value → Prop
  | null (t : TypeExpr) : Fits d t .null
  | name {v : EnumValue} (hv : v ∈ d.values) : Fits d (.enum d) (.enum v.name)
  | list {item : TypeExpr} {items : List Value} (hitems : ∀ v ∈ items, Fits d item v) :
      Fits d (.list item) (.list items)
  | nullable {inner : TypeExpr} {v : Value} (hv : Fits d inner v) : Fits d (.nullable inner) v

end EnumDef

/-! ## Types over an enum -/

namespace TypeExpr

/-- As a single argument of type `t` the raw value `v` reaches the resolver as `w`: the
compiler finds a way to materialize it, and that makes `w` of it. -/
def PassesAs (r : Registry) (t : TypeExpr) (v w : Value) : Prop :=
  ∀ (arg : LinkedArg) (s : CompileState), arg.type = .given t →
    ∃ mapping, Compile.argMapping r arg s = .ok mapping s ∧
      ∀ (table : ShapeTable) (raw : Value), argumentOf raw arg.decl.name = v →
        mapping.materialize table raw = .ok (.raw w)

/-- A raw value reaches the resolver as one thing only. -/
theorem PassesAs.unique {r : Registry} {t : TypeExpr} {v w w' : Value} (h : t.PassesAs r v w)
    (h' : t.PassesAs r v w') : w = w' := by
  obtain ⟨mapping, hmapping, hw⟩ := h ⟨{ name := "" }, .given t⟩ {} rfl
  obtain ⟨mapping', hmapping', hw'⟩ := h' ⟨{ name := "" }, .given t⟩ {} rfl
  cases hmapping.symm.trans hmapping'
  have hraw : argumentOf (.obj [("", v)]) "" = v := rfl
  cases (hw ∅ _ hraw).symm.trans (hw' ∅ _ hraw)
  rfl

/-- Arguments of type `t` are converted along `shape`, which takes no compiling. -/
def HasShape (r : Registry) (t : TypeExpr) (shape : ValueShape) : Prop :=
  ∀ (enter : NodeId → CompileM Unit) (s : CompileState),
    Compile.shapeOfExpr r enter t s = .ok shape s

variable {r : Registry} {t item inner : TypeExpr} {shape : ValueShape} {d : EnumDef}

theorem HasShape.enum (d : EnumDef) : HasShape r (.enum d) (.enum d) := fun _ _ => rfl

theorem HasShape.list (h : HasShape r item shape) : HasShape r (.list item) (.list shape) :=
  fun enter s => Compile.bind_eq_ok.mpr ⟨shape, s, h enter s, rfl⟩

theorem HasShape.nullable (h : HasShape r inner shape) : HasShape r (.nullable inner) shape := h

/-- What is converted along a shape is passed by value. -/
theorem HasShape.passesAs (h : HasShape r t shape) {v w : Value}
    (hw : ∀ table, Value.ofJson (v.toJsonAs table shape) = w) : t.PassesAs r v w := by
  rintro ⟨decl, -⟩ s rfl
  refine ⟨.raw decl.name shape, Compile.bind_eq_ok.mpr ⟨shape, s, h _ s, rfl⟩, ?_⟩
  rintro table raw rfl
  rw [ArgumentMapping.materialize, hw table]

/-- The way in along a shape and the way out by a hook belong to the type and undo each other:
the hook gives back every raw value that fits. Guards let null through on the way out, so it
matters that the hook under them leaves null as it is. -/
structure Returns (r : Registry) (d : EnumDef) (t : TypeExpr) (shape : ValueShape)
    (hook : Resolved → Resolved) : Prop where
  converts : HasShape r t shape
  applies : t.hook? = some hook
  null : hook .null = .null
  /-- No input object is met on the way in, so the table does not matter. -/
  steady : ∀ (table table' : ShapeTable) (v : Value),
    v.toJsonAs table shape = v.toJsonAs table' shape
  back : ∀ (table : ShapeTable) (v : Value), d.Fits t v →
    (hook (.value (.ofJson (v.toJsonAs table shape)))).plain? = some v

namespace Returns

variable {hook : Resolved → Resolved}

theorem enum (hd : d.Distinct) : Returns r d (.enum d) (.enum d) d.encode where
  converts := .enum d
  applies := rfl
  null := EnumDef.encode_null
  steady table table' v := by cases v <;> rfl
  back table v hv := by
    cases hv with
    | null => rfl
    | name hv =>
        rw [Value.toJsonAs, EnumDef.decode_name hd.names hv, hd.encode_internal hv]
        rfl

/-- The elements of a list come back one by one, as a list of answers. -/
theorem list (h : Returns r d item shape hook) :
    Returns r d (.list item) (.list shape) fun a => a.mapItems hook where
  converts := h.converts.list
  applies := by rw [hook?, h.applies, Option.map_some]
  null := rfl
  steady table table' v := by
    cases v with
    | list items =>
        rw [Value.toJsonAs_list, Value.toJsonAs_list]
        exact congrArg _ (List.map_congr_left fun w _ => h.steady table table' w)
    | null | bool _ | num _ | str _ | enum _ | binary _ | obj _ => rfl
  back table v hv := by
    cases hv with
    | null => rfl
    | list hitems =>
        rw [Value.toJsonAs_list, Value.ofJson, Value.ofJsonItems_eq_map, List.map_map,
          Resolved.mapItems, List.map_map, Resolved.plain?]
        exact congrArg _ (Resolved.plainItems?_map fun w hw => h.back table w (hitems w hw))

/-- The guard against null gives back null, as the hook under it does. -/
theorem nullable (h : Returns r d inner shape hook) :
    Returns r d (.nullable inner) shape fun a => if a.isNull then a else hook a where
  converts := h.converts.nullable
  applies := by rw [hook?, h.applies, Option.map_some]
  null := rfl
  steady := h.steady
  back table v hv := by
    have hback : (hook (.value (.ofJson (v.toJsonAs table shape)))).plain? = some v := by
      cases hv with
      | null => exact h.back table .null (.null inner)
      | nullable hv => exact h.back table v hv
    split
    · next hnull =>
        rw [Resolved.eq_null_of_isNull hnull, h.null] at hback
        rw [Resolved.eq_null_of_isNull hnull, hback]
    · exact hback

end Returns

theorem exists_returns (hd : d.Distinct) (r : Registry) (ht : t.core = .enum d) :
    ∃ shape hook, Returns r d t shape hook := by
  induction t with
  | ref _ | scalar _ | union _ => cases ht
  | enum d' =>
      cases ht
      exact ⟨_, _, .enum hd⟩
  | list item ih =>
      obtain ⟨shape, hook, h⟩ := ih ht
      exact ⟨_, _, h.list⟩
  | nullable inner ih =>
      obtain ⟨shape, hook, h⟩ := ih ht
      exact ⟨_, _, h.nullable⟩

/-- Values of a type over an enum survive the way in and the way out: what a raw value is
materialized to as a single argument is turned back into it by the output hook. -/
theorem plain?_applyHook (hd : d.Distinct) (ht : t.core = .enum d) (r : Registry) {v : Value}
    (hv : d.Fits t v) :
    ∃ w, t.PassesAs r v w ∧ (t.applyHook (.value w)).plain? = some v := by
  obtain ⟨shape, hook, h⟩ := exists_returns hd r ht
  refine ⟨.ofJson (v.toJsonAs ∅ shape), h.converts.passesAs ?_, ?_⟩
  · exact fun table => congrArg Value.ofJson (h.steady table ∅ v)
  · rw [applyHook, h.applies]
    exact h.back ∅ v hv

end TypeExpr

/-! ### Grants

Internal values that look like lists of the type, under a nullable and two lists. -/

namespace Grants

def grant : EnumDef := ⟨"Grant", none,
  [⟨"NOTHING", .arr [], none, none⟩, ⟨"READ", .arr [.str "read"], none, none⟩,
   ⟨"ALL", .obj [("level", .num (.int 9))], none, none⟩]⟩

theorem grant_distinct : grant.Distinct where
  apart := by decide
  present := by decide
  names := by decide

def matrix : TypeExpr := .list (.nullable (.list (.enum grant)))

/-- One row is left out, and one grant in another. -/
def raw : Value := .list [.list [.enum "READ", .enum "NOTHING", .null], .null, .list []]

theorem raw_fits : grant.Fits matrix raw := by
  have hread : grant.Fits (.enum grant) (.enum "READ") :=
    .name (v := ⟨"READ", .arr [.str "read"], none, none⟩) (by simp [grant])
  have hnothing : grant.Fits (.enum grant) (.enum "NOTHING") :=
    .name (v := ⟨"NOTHING", .arr [], none, none⟩) (by simp [grant])
  refine .list fun row hrow => ?_
  simp only [List.mem_cons, List.not_mem_nil, or_false] at hrow
  rcases hrow with rfl | rfl | rfl
  · refine .nullable (.list fun v hv => ?_)
    simp only [List.mem_cons, List.not_mem_nil, or_false] at hv
    rcases hv with rfl | rfl | rfl
    · exact hread
    · exact hnothing
    · exact .null _
  · exact .null _
  · exact .nullable (.list fun v hv => absurd hv List.not_mem_nil)

theorem plain?_raw : ∃ w, matrix.PassesAs (.ofDeclarations []) raw w ∧
    (matrix.applyHook (.value w)).plain? = some raw :=
  TypeExpr.plain?_applyHook grant_distinct rfl _ raw_fits

end Grants

end SchemaGraph
