import SchemaGraph.Proofs.Input.Defaults

/-!
# What conversion changes

A raw value is converted along its shape, and where the two disagree it is converted as it is.
Two things only can happen to it on the way: a name that an enum declares becomes the internal
value, and an object that omits a declared field gets the default of that field. Everything
else is what it is without a shape: keys that nobody declared, nulls, names that the enum does
not know, the length and the order of lists.

Positions say where in a value something is. The shape that counts at a position is read off
the steps alone, since a step that does not fit the value leads nowhere.
-/

set_option autoImplicit false

namespace SchemaGraph

/-! ## Positions -/

/-- One step into a value: to an item of a list, or to what an object has under a key. -/
inductive Step where
  | index (i : Nat)
  | key (k : String)
deriving DecidableEq, Repr

def Value.step? : Value → Step → Option Value
  | .list items, .index i => items[i]?
  | .obj entries, .key k => Entries.find? entries k
  | _, _ => none

/-- The value at a position. -/
def Value.at? (v : Value) : List Step → Option Value
  | [] => some v
  | a :: p => (v.step? a).bind fun w => at? w p

namespace Json

def step? : Json → Step → Option Json
  | .arr items, .index i => items[i]?
  | .obj entries, .key k => Entries.find? entries k
  | _, _ => none

/-- The document at a position. -/
def at? (j : Json) : List Step → Option Json
  | [] => some j
  | a :: p => (j.step? a).bind fun i => at? i p

/-- A document without what is inside it. -/
inductive Head where
  | null
  | bool (value : Bool)
  | num (value : Number)
  | str (value : String)
  | arr (length : Nat)
  | obj

def head : Json → Head
  | .null => .null
  | .bool b => .bool b
  | .num n => .num n
  | .str s => .str s
  | .arr items => .arr items.length
  | .obj _ => .obj

end Json

namespace InputObjectShape

/-- The default that a field gets if it is omitted: of several declarations of its name, the
last one that has a default counts. -/
def default? (o : InputObjectShape) (k : String) : Option Json :=
  o.fields.reverse.findSome? fun f => if f.name = k then f.default? else none

end InputObjectShape

namespace ShapeTable

/-- The shape after a step: of the items of a list, or of the declared field of an input
object. What has no shape of its own is plain. -/
def step (table : ShapeTable) : ValueShape → Step → ValueShape
  | .list item, .index _ => item
  | .input id, .key k =>
    match (table.filled? id).bind (·.field? k) with
    | some f => f.shape
    | none => .plain
  | _, _ => .plain

/-- The shape at a position. -/
def shapeAt (table : ShapeTable) (shape : ValueShape) (p : List Step) : ValueShape :=
  p.foldl table.step shape

/-- The raw value `v`, read by `shape`, has the name `name` for the enum `d` at `p`. -/
def NamesAt (table : ShapeTable) (shape : ValueShape) (v : Value) (p : List Step) (d : EnumDef)
    (name : String) : Prop :=
  table.shapeAt shape p = .enum d ∧ (v.at? p = some (.enum name) ∨ v.at? p = some (.str name))

/-- The raw value `v`, read by `shape`, has an object at `p` where an input object with the
shape `o` is expected, and this object omits the key `k`. -/
def OmitsAt (table : ShapeTable) (shape : ValueShape) (v : Value) (p : List Step)
    (o : InputObjectShape) (k : String) : Prop :=
  ∃ id entries, table.shapeAt shape p = .input id ∧ table.filled? id = some o ∧
    v.at? p = some (.obj entries) ∧ Entries.find? entries k = none

/-- What conversion may change: a declared name becomes its internal value, and an omitted field
its default. -/
inductive Changes (table : ShapeTable) (shape : ValueShape) (v : Value) : List Step → Json → Prop
  | named {p : List Step} {d : EnumDef} {name : String} {j : Json}
      (h : table.NamesAt shape v p d name) (hj : d.internalOf? name = some j) :
      Changes table shape v p j
  | omitted {p : List Step} {o : InputObjectShape} {k : String} {j : Json}
      (h : table.OmitsAt shape v p o k) (hj : o.default? k = some j) :
      Changes table shape v (p ++ [.key k]) j

/-- The document `J` is what the raw value `v` says, but for what its shape changes. -/
structure Frames (table : ShapeTable) (shape : ValueShape) (v : Value) (J : Json) : Prop where
  changed : ∀ p j, table.Changes shape v p j → J.at? p = some j
  /-- Outside of what is changed there is the same as without a shape, or nothing in both. -/
  same : ∀ p, (∀ q j, table.Changes shape v q j → ¬ q <+: p) →
    (J.at? p).map Json.head = (v.toJson.at? p).map Json.head
  /-- Whatever was given is there, under its key or index. -/
  given : ∀ p w, v.at? p = some w → ∃ j, J.at? p = some j
  lists : ∀ p items, v.at? p = some (.list items) →
    ∃ documents, J.at? p = some (.arr documents) ∧ documents.length = items.length
  nulls : ∀ p, v.at? p = some .null → J.at? p = some .null
  unknown : ∀ p d name, table.NamesAt shape v p d name → d.internalOf? name = none →
    J.at? p = some (.str name)

end ShapeTable

/-! ## Completing an object

Whatever is stored under a key comes from the last declaration of its name that answers. -/

namespace InputFieldShape

variable {given : List (String × (ValueShape → Json))} {plain : List (String × Json)}

theorem find?_foldl_store_eq (fields : List InputFieldShape) (k : String) :
    Entries.find? (fields.foldl (fun entries f => f.store given entries) plain) k
      = (fields.reverse.findSome? fun f => if f.name = k then f.answer? given else none).or
          (Entries.find? plain k) := by
  induction fields using List.reverseRecOn with
  | nil => rfl
  | append_singleton fields f ih =>
      rw [List.foldl_append, List.foldl_cons, List.foldl_nil, List.reverse_append,
        List.reverse_singleton, List.singleton_append, List.findSome?_cons]
      by_cases hf : f.name = k
      · rw [if_pos hf, store]
        cases f.answer? given with
        | none => exact ih
        | some j =>
            rw [hf, Entries.find?_insert_self]
            rfl
      · rw [if_neg hf, find?_store_of_ne hf]
        exact ih

end InputFieldShape

namespace InputObjectShape

variable {given : List (String × (ValueShape → Json))} {plain : List (String × Json)}
  {o : InputObjectShape} {k : String}

/-- What is omitted gets its default, or is what it was. -/
theorem find?_fill_of_omitted (h : Entries.find? given k = none) :
    Entries.find? (o.fill plain given) k = (o.default? k).or (Entries.find? plain k) := by
  rw [fill_eq, InputFieldShape.find?_foldl_store_eq, default?]
  congr 2
  funext f
  split
  · next hf => exact InputFieldShape.answer?_of_omitted (hf ▸ h)
  · rfl

end InputObjectShape

namespace Value

variable {table : ShapeTable}

theorem toJsonItems_eq_map (items : List Value) : toJsonItems items = items.map toJson := by
  induction items with
  | nil => rfl
  | cons v rest ih => rw [toJsonItems, ih, List.map_cons]

/-! ## One step -/

/-- Where a value leads on, its conversion leads to the conversion of what is there. -/
theorem step?_toJsonAs {v w : Value} {a : Step} (shape : ValueShape) (h : v.step? a = some w) :
    (v.toJsonAs table shape).step? a = some (w.toJsonAs table (table.step shape a)) := by
  unfold step? at h
  split at h
  · next items i =>
      cases shape with
      | list item =>
          rw [toJsonAs_list, Json.step?, List.getElem?_map, h]
          rfl
      | plain | enum _ | input _ =>
          rw [toJsonAs, toJson, toJsonItems_eq_map, Json.step?, List.getElem?_map, h]
          · exact congrArg some (toJsonAs_plain w).symm
          all_goals simp
  · next entries k =>
      have hplain : Entries.find? (toJsonEntries entries) k = some w.toJson := by
        rw [find?_toJsonEntries, h, Option.map_some]
      cases shape with
      | input id =>
          cases hfilled : table.filled? id with
          | none =>
              simp only [toJsonAs, hfilled, Json.step?, ShapeTable.step, Option.bind_none,
                toJsonAs_plain, hplain]
          | some o =>
              have hgiven : Entries.find? (toJsonAsEntries table entries) k
                  = some (w.toJsonAs table) := by
                rw [find?_toJsonAsEntries, h, Option.map_some]
              rw [toJsonAs_input hfilled, Json.step?]
              cases hf : o.field? k with
              | none =>
                  have hundeclared : ∀ f ∈ o.fields, f.name = k →
                      f.answer? (toJsonAsEntries table entries) = none := by
                    intro f hmem hname
                    have hno := List.find?_eq_none.mp hf f (List.mem_reverse.mpr hmem)
                    exact absurd hname (by simpa using hno)
                  rw [InputObjectShape.find?_fill_of_unanswered hundeclared, hplain]
                  simp only [ShapeTable.step, hfilled, Option.bind_some, hf, toJsonAs_plain]
              | some f =>
                  have hname := InputObjectShape.name_of_field? hf
                  rw [InputObjectShape.find?_fill hf
                    (InputFieldShape.answer?_of_given (by rw [hname]; exact hgiven))]
                  simp only [ShapeTable.step, hfilled, Option.bind_some, hf]
      | plain | enum _ | list _ =>
          rw [toJsonAs, toJson, Json.step?, hplain]
          · exact congrArg some (toJsonAs_plain w).symm
          all_goals simp
  · cases h

/-- A value is converted position by position. -/
theorem at?_toJsonAs {v w : Value} {p : List Step} (shape : ValueShape) (h : v.at? p = some w) :
    (v.toJsonAs table shape).at? p = some (w.toJsonAs table (table.shapeAt shape p)) := by
  induction p generalizing v shape with
  | nil =>
      obtain rfl := Option.some.inj h
      rfl
  | cons a p ih =>
      obtain ⟨u, hu, h⟩ := Option.bind_eq_some_iff.mp h
      rw [Json.at?, step?_toJsonAs shape hu, Option.bind_some]
      exact ih (table.step shape a) h

/-- The plain conversion leads on as every other. -/
theorem step?_toJson {v w : Value} {a : Step} (h : v.step? a = some w) :
    v.toJson.step? a = some w.toJson := by
  have hstep : (v.toJsonAs ∅ .plain).step? a
      = some (w.toJsonAs ∅ (ShapeTable.step ∅ .plain a)) := step?_toJsonAs .plain h
  rwa [toJsonAs_plain, show ShapeTable.step ∅ .plain a = .plain from rfl, toJsonAs_plain] at hstep

theorem at?_append {p q : List Step} {v w : Value} (h : v.at? p = some w) :
    v.at? (p ++ q) = w.at? q := by
  induction p generalizing v with
  | nil =>
      obtain rfl := Option.some.inj h
      rfl
  | cons a p ih =>
      obtain ⟨u, hu, h⟩ := Option.bind_eq_some_iff.mp h
      rw [List.cons_append, at?, hu, Option.bind_some, ih h]

end Value

theorem Json.at?_append {p q : List Step} {j i : Json} (h : j.at? p = some i) :
    j.at? (p ++ q) = i.at? q := by
  induction p generalizing j with
  | nil =>
      obtain rfl := Option.some.inj h
      rfl
  | cons a p ih =>
      obtain ⟨u, hu, h⟩ := Option.bind_eq_some_iff.mp h
      rw [List.cons_append, at?, hu, Option.bind_some, ih h]

/-! ## What is changed -/

namespace EnumDef

variable {d : EnumDef} {name : String}

theorem decode_of_internal {j : Json} (h : d.internalOf? name = some j) : d.decode name = j := by
  rw [decode, h, Option.getD_some]

theorem decode_of_unknown (h : d.internalOf? name = none) : d.decode name = .str name := by
  rw [decode, h, Option.getD_none]

end EnumDef

namespace ShapeTable

variable {table : ShapeTable} {shape : ValueShape} {v w : Value} {p : List Step}

/-- A name, as an enum value or as a text, is decoded. -/
theorem NamesAt.at?_toJsonAs {d : EnumDef} {name : String} (h : table.NamesAt shape v p d name) :
    (v.toJsonAs table shape).at? p = some (d.decode name) := by
  obtain ⟨hshape, hvalue | hvalue⟩ := h
  · rw [Value.at?_toJsonAs shape hvalue, hshape, Value.toJsonAs]
  · rw [Value.at?_toJsonAs shape hvalue, hshape, Value.toJsonAs]

/-- What an object omits has its default, or nothing. -/
theorem OmitsAt.at?_toJsonAs {o : InputObjectShape} {k : String}
    (h : table.OmitsAt shape v p o k) :
    (v.toJsonAs table shape).at? (p ++ [.key k]) = o.default? k := by
  obtain ⟨id, entries, hshape, hfilled, hvalue, homitted⟩ := h
  have hgiven : Entries.find? (Value.toJsonAsEntries table entries) k = none := by
    rw [Value.find?_toJsonAsEntries, homitted, Option.map_none]
  have hplain : Entries.find? (Value.toJsonEntries entries) k = none := by
    rw [Value.find?_toJsonEntries, homitted, Option.map_none]
  rw [Json.at?_append (Value.at?_toJsonAs shape hvalue), hshape, Value.toJsonAs_input hfilled,
    Json.at?, Json.step?, InputObjectShape.find?_fill_of_omitted hgiven, hplain, Option.or_none]
  exact Option.bind_fun_some _

/-- What is changed further in is changed. -/
theorem Changes.cons {a : Step} {j : Json} (hstep : v.step? a = some w)
    (h : table.Changes (table.step shape a) w p j) : table.Changes shape v (a :: p) j := by
  have hvalue : ∀ q, v.at? (a :: q) = w.at? q := fun q => by
    rw [Value.at?, hstep, Option.bind_some]
  cases h with
  | named h hj => exact .named ⟨h.1, by rw [hvalue]; exact h.2⟩ hj
  | @omitted q o k _ h hj =>
      obtain ⟨id, entries, hshape, hfilled, hentries, homitted⟩ := h
      exact .omitted (p := a :: q)
        ⟨id, entries, hshape, hfilled, by rw [hvalue]; exact hentries, homitted⟩ hj

/-! ## What is not changed -/

/-- Where a name is not changed it is a text, as it is without a shape. -/
theorem decode_eq_str {d : EnumDef} {name : String} (h : table.NamesAt (.enum d) v [] d name)
    (hunchanged : ∀ j, ¬ table.Changes (.enum d) v [] j) : d.decode name = .str name := by
  cases hj : d.internalOf? name with
  | none => exact EnumDef.decode_of_unknown hj
  | some j => exact absurd (.named h hj) (hunchanged j)

/-- A value that is not changed itself has the head it has without a shape. -/
theorem head_toJsonAs (hunchanged : ∀ j, ¬ table.Changes shape v [] j) :
    (v.toJsonAs table shape).head = v.toJson.head := by
  cases v with
  | null | bool _ | num _ | binary _ => cases shape <;> rfl
  | str name =>
      cases shape with
      | enum d => rw [Value.toJsonAs, decode_eq_str ⟨rfl, Or.inr rfl⟩ hunchanged, Value.toJson]
      | plain | list _ | input _ => rfl
  | enum name =>
      cases shape with
      | enum d => rw [Value.toJsonAs, decode_eq_str ⟨rfl, Or.inl rfl⟩ hunchanged, Value.toJson]
      | plain | list _ | input _ => rfl
  | list items =>
      cases shape with
      | list item =>
          rw [Value.toJsonAs_list, Value.toJson, Value.toJsonItems_eq_map, Json.head, Json.head,
            List.length_map, List.length_map]
      | plain | enum _ | input _ => rfl
  | obj entries =>
      cases shape with
      | input id =>
          cases hfilled : table.filled? id with
          | none => simp only [Value.toJsonAs, hfilled, Value.toJson]
          | some o =>
              rw [Value.toJsonAs_input hfilled]
              rfl
      | plain | enum _ | list _ => rfl

/-- A step that leads out of a value leads to nothing new, unless something is changed there. -/
theorem step?_toJsonAs_of_none {a : Step} (hstep : v.step? a = none)
    (hunchanged : ∀ q j, table.Changes shape v q j → ¬ q <+: [a]) :
    (v.toJsonAs table shape).step? a = v.toJson.step? a := by
  have hroot : ∀ j, ¬ table.Changes shape v [] j :=
    fun j h => hunchanged [] j h List.nil_prefix
  cases v with
  | null | bool _ | num _ | binary _ => cases shape <;> rfl
  | str name =>
      cases shape with
      | enum d => rw [Value.toJsonAs, decode_eq_str ⟨rfl, Or.inr rfl⟩ hroot, Value.toJson]
      | plain | list _ | input _ => rfl
  | enum name =>
      cases shape with
      | enum d => rw [Value.toJsonAs, decode_eq_str ⟨rfl, Or.inl rfl⟩ hroot, Value.toJson]
      | plain | list _ | input _ => rfl
  | list items =>
      cases shape with
      | list item =>
          cases a with
          | key k => rfl
          | index i =>
              have hi : items[i]? = none := hstep
              simp only [Value.toJsonAs_list, Value.toJson, Value.toJsonItems_eq_map, Json.step?,
                List.getElem?_map, hi, Option.map_none]
      | plain | enum _ | input _ => rfl
  | obj entries =>
      cases shape with
      | input id =>
          cases hfilled : table.filled? id with
          | none => simp only [Value.toJsonAs, hfilled, Value.toJson]
          | some o =>
              cases a with
              | index i => simp only [Value.toJsonAs, hfilled, Value.toJson, Json.step?]
              | key k =>
                  have homits : table.OmitsAt (.input id) (.obj entries) [] o k :=
                    ⟨id, entries, rfl, hfilled, rfl, hstep⟩
                  have hdefault : o.default? k = none := by
                    cases hj : o.default? k with
                    | none => rfl
                    | some j =>
                        exact absurd (List.prefix_refl _) (hunchanged _ j (.omitted homits hj))
                  have hnone := homits.at?_toJsonAs.trans hdefault
                  rw [List.nil_append, Json.at?, Option.bind_eq_none_iff] at hnone
                  rw [Value.toJson, Json.step?, Value.find?_toJsonEntries,
                    show Entries.find? entries k = none from hstep, Option.map_none]
                  cases hat : ((Value.obj entries).toJsonAs table (.input id)).step? (.key k) with
                  | none => rfl
                  | some i => exact absurd (hnone i hat) nofun
      | plain | enum _ | list _ => rfl

/-- A position that is not at or below a change has what it has without a shape. -/
theorem head_at?_toJsonAs (hunchanged : ∀ q j, table.Changes shape v q j → ¬ q <+: p) :
    ((v.toJsonAs table shape).at? p).map Json.head = (v.toJson.at? p).map Json.head := by
  induction p generalizing v shape with
  | nil =>
      exact congrArg some (head_toJsonAs fun j h => hunchanged [] j h List.nil_prefix)
  | cons a p ih =>
      cases hstep : v.step? a with
      | some w =>
          rw [Json.at?, Json.at?, Value.step?_toJsonAs shape hstep, Value.step?_toJson hstep,
            Option.bind_some, Option.bind_some]
          refine ih fun q j h hbelow => hunchanged (a :: q) j (h.cons hstep) ?_
          exact List.cons_prefix_cons.mpr ⟨rfl, hbelow⟩
      | none =>
          have hfirst : ∀ q j, table.Changes shape v q j → ¬ q <+: [a] :=
            fun q j h hbelow => hunchanged q j h (hbelow.trans (List.prefix_append [a] p))
          rw [Json.at?, Json.at?, step?_toJsonAs_of_none hstep hfirst]

/-- Materialization changes nothing but what the shape says, whatever shape and value. -/
theorem frames_toJsonAs (table : ShapeTable) (shape : ValueShape) (v : Value) :
    table.Frames shape v (v.toJsonAs table shape) := by
  refine ⟨fun p j h => ?_, fun p hunchanged => head_at?_toJsonAs hunchanged,
    fun p w hw => ⟨_, Value.at?_toJsonAs shape hw⟩, fun p items hitems => ?_, fun p hnull => ?_,
    fun p d name hname hunknown => ?_⟩
  · cases h with
    | named hname hj => rw [hname.at?_toJsonAs, EnumDef.decode_of_internal hj]
    | omitted homits hj => rw [homits.at?_toJsonAs, hj]
  · have hhead : (v.toJsonAs table shape).at? p = _ := Value.at?_toJsonAs shape hitems
    cases hshape : table.shapeAt shape p with
    | list item =>
        rw [hshape, Value.toJsonAs_list] at hhead
        exact ⟨_, hhead, List.length_map _⟩
    | plain | enum _ | input _ =>
        rw [hshape] at hhead
        refine ⟨_, hhead, ?_⟩
        rw [Value.toJsonItems_eq_map, List.length_map]
  · rw [Value.at?_toJsonAs shape hnull]
    cases table.shapeAt shape p <;> rfl
  · rw [hname.at?_toJsonAs, EnumDef.decode_of_unknown hunknown]

end ShapeTable

end SchemaGraph
