import SchemaGraph.Proofs.Compile.Requests
import SchemaGraph.Proofs.Input.Fill

/-!
# Omitted fields and their defaults

What a schema says of an input field is its compiled default, a plain document. Giving that
document for the field and leaving the field out ought to be the same. They are not treated
the same: what is given is converted by the shape of the field, which turns enum names into
internal values and completes input objects, while a default is stored as it was declared.
So they agree where the conversion leaves the default as it is, and only there.

A second way to part is a name that is declared twice. The schema shows the field that was
declared last, while completing an object goes through all of them: a default of an earlier
field is stored although the field that counts has none.
-/

set_option autoImplicit false

namespace SchemaGraph

open CompileState

variable {r : Registry} {table : ShapeTable} {s : CompileState}

/-! ## What is advertised -/

/-- What compiling the input object or the bundle `j` makes of the input field `name`. -/
def Registry.Advertises (r : Registry) (j : NodeId) (name : String) (c : CompiledInput) :
    Prop :=
  ∃ owner compiled, Meaning.inputs r owner (Meaning.bundleFields r j) ∅ = .ok compiled ∧
    compiled.find? name = some c

/-- Compiled input fields and their shapes are made from the same declarations, and of
several of one name the last one counts for both. -/
theorem Meaning.find?_inputs {owner : String} {ids : List NodeId} (name : String) :
    ∀ {before after : OrderedMap String CompiledInput} {fields : List InputFieldShape},
      inputs r owner ids before = .ok after → fieldShapes r ids = .ok fields →
      (after.find? name).map (·.default?)
        = ((fields.reverse.find? (·.name = name)).map (·.default?)).or
            ((before.find? name).map (·.default?)) := by
  induction ids with
  | nil =>
      intro before after fields h hfields
      cases h
      cases hfields
      rfl
  | cons i rest ih =>
      intro before after fields h hfields
      obtain ⟨linked, hlinked, h⟩ := bind_eq_ok.mp h
      obtain ⟨c, hc, h⟩ := bind_eq_ok.mp h
      obtain ⟨linked', hlinked', hfields⟩ := bind_eq_ok.mp hfields
      obtain rfl : linked = linked' := Except.ok.inj (hlinked.symm.trans hlinked')
      obtain ⟨shape, hshape, hfields⟩ := bind_eq_ok.mp hfields
      obtain ⟨shapes, hshapes, hfields⟩ := bind_eq_ok.mp hfields
      cases hfields
      rw [ih h hshapes, OrderedMap.find?_insert, List.reverse_cons, List.find?_append]
      by_cases hname : name = linked.decl.name
      · cases shapes.reverse.find? (·.name = name) <;> simp [hname]
      · cases shapes.reverse.find? (·.name = name) <;> simp [hname, Ne.symm hname]

/-- The default that is advertised is the one of the field that counts. -/
theorem ShapeTable.Complete.field?_of_advertises (h : table.Complete r) {j : NodeId}
    {shape : InputObjectShape} (hfilled : table.filled? j = some shape) {name : String}
    {c : CompiledInput} (hc : r.Advertises j name c) :
    ∃ f, shape.field? name = some f ∧ f.default? = c.default? := by
  obtain ⟨owner, compiled, hcompiled, hc⟩ := hc
  obtain ⟨-, -, -, hfields⟩ := Meaning.shape_eq_ok (h.meaning (find?_of_filled hfilled))
  have hfind := Meaning.find?_inputs name hcompiled hfields
  rw [hc, OrderedMap.find?_empty, Option.map_none, Option.or_none, Option.map_some, eq_comm,
    Option.map_eq_some_iff] at hfind
  exact hfind

/-! ## Raw values and what is inside them -/

/-- Two raw values read by a shape that differ in one object inside them, read as an input
`j`: what is `entries` in the one is `entries'` in the other, and these are related by
`Change`. -/
inductive Value.Differ (table : ShapeTable)
    (Change : NodeId → List (String × Value) → List (String × Value) → Prop) :
    ValueShape → Value → Value → Prop
  | here {j : NodeId} {entries entries' : List (String × Value)}
      (h : Change j entries entries') : Differ table Change (.input j) (.obj entries)
        (.obj entries')
  | item {item : ValueShape} {v v' : Value} (before after : List Value)
      (h : Differ table Change item v v') :
      Differ table Change (.list item) (.list (before ++ v :: after))
        (.list (before ++ v' :: after))
  | field {j : NodeId} {shape : InputObjectShape} {name : String} {f : InputFieldShape}
      {v v' : Value} (entries : List (String × Value)) (hshape : table.filled? j = some shape)
      (hf : shape.field? name = some f) (h : Differ table Change f.shape v v') :
      Differ table Change (.input j) (.obj (Entries.insert name v entries))
        (.obj (Entries.insert name v' entries))

/-- Inside the raw value `v`, read by `shape`, and the document `J` made of it: a raw value
with its shape, and the document that stands in its place. -/
inductive ShapeTable.Part (table : ShapeTable) (shape : ValueShape) (v : Value) (J : Json) :
    ValueShape → Value → Json → Prop
  | whole : Part table shape v J shape v J
  | item {item : ValueShape} {items : List Value} {documents : List Json} {w : Value} {K : Json}
      (i : Nat) (h : Part table shape v J (.list item) (.list items) (.arr documents))
      (hw : items[i]? = some w) (hK : documents[i]? = some K) : Part table shape v J item w K
  | field {j : NodeId} {object : InputObjectShape} {name : String} {f : InputFieldShape}
      {entries : List (String × Value)} {documents : List (String × Json)} {w : Value} {K : Json}
      (h : Part table shape v J (.input j) (.obj entries) (.obj documents))
      (hobject : table.filled? j = some object) (hf : object.field? name = some f)
      (hw : Entries.find? entries name = some w) (hK : Entries.find? documents name = some K) :
      Part table shape v J f.shape w K

/-- The second object gives, for a field that the first omits, the default that is advertised
for it. -/
def Registry.Supplies (r : Registry) (j : NodeId) (entries entries' : List (String × Value)) :
    Prop :=
  ∃ name c d, r.Advertises j name c ∧ c.default? = some d ∧
    Entries.find? entries name = none ∧ entries' = Entries.insert name (.ofJson d) entries

/-- Raw values read by this shape are completed as the schema says: leaving out a field, at
any depth, is the same as giving its advertised default, and a field that is left out and
has none is not there. -/
structure ShapeTable.FillsAsAdvertised (r : Registry) (table : ShapeTable)
    (shape : ValueShape) : Prop where
  supplied : ∀ raw raw', Value.Differ table r.Supplies shape raw raw' →
    raw.toJsonAs table shape = raw'.toJsonAs table shape
  absent : ∀ raw j entries K,
    table.Part shape raw (raw.toJsonAs table shape) (.input j) (.obj entries) K →
    ∀ name c, r.Advertises j name c → c.default? = none →
      Entries.find? entries name = none → K.get? name = none

/-! ## When it holds -/

/-- The input object `j` takes its advertised defaults for what they are: the shape of the
field leaves each as it is, and where none is advertised no field of the name has one. -/
structure Registry.DefaultsStand (r : Registry) (table : ShapeTable) (j : NodeId) : Prop where
  converted : ∀ shape name c d f, table.filled? j = some shape → r.Advertises j name c →
    c.default? = some d → shape.field? name = some f →
    (Value.ofJson d).toJsonAs table f.shape = d
  bare : ∀ shape name c, table.filled? j = some shape → r.Advertises j name c →
    c.default? = none → ∀ f ∈ shape.fields, f.name = name → f.default? = none

/-- A field that counts for its name in `i` contains the input `j`. -/
def ShapeTable.Onward (table : ShapeTable) (i j : NodeId) : Prop :=
  ∃ shape name f, table.filled? i = some shape ∧ shape.field? name = some f ∧
    j ∈ f.shape.inputs

namespace Value

theorem toJsonAsItems_eq_map (items : List Value) (item : ValueShape) :
    toJsonAsItems table items item = items.map fun v => v.toJsonAs table item := by
  induction items with
  | nil => rfl
  | cons v rest ih => rw [toJsonAsItems, ih, List.map_cons]

theorem toJsonAs_list (items : List Value) (item : ValueShape) :
    (Value.list items).toJsonAs table (.list item)
      = .arr (items.map fun v => v.toJsonAs table item) := by
  rw [toJsonAs, toJsonAsItems_eq_map]

theorem toJsonAs_input {j : NodeId} {shape : InputObjectShape}
    (h : table.filled? j = some shape) (entries : List (String × Value)) :
    (Value.obj entries).toJsonAs table (.input j)
      = .obj (shape.fill (toJsonEntries entries) (toJsonAsEntries table entries)) := by
  simp only [toJsonAs, h]

/-- A value that is given is converted by the shape of the field that counts. -/
theorem answer?_of_find? {entries : List (String × Value)} {f : InputFieldShape} {v : Value}
    (h : Entries.find? entries f.name = some v) :
    f.answer? (toJsonAsEntries table entries) = some (v.toJsonAs table f.shape) :=
  InputFieldShape.answer?_of_given (by rw [find?_toJsonAsEntries, h]; rfl)

theorem answer?_of_omitted {entries : List (String × Value)} {f : InputFieldShape}
    (h : Entries.find? entries f.name = none) :
    f.answer? (toJsonAsEntries table entries) = f.default? :=
  InputFieldShape.answer?_of_omitted (by rw [find?_toJsonAsEntries, h]; rfl)

/-- Giving `v` for a field of an object completes it as before, but for what `v` is converted
to. -/
theorem fill_insert {shape : InputObjectShape} {name : String} {f : InputFieldShape}
    (hf : shape.field? name = some f) (entries : List (String × Value)) (v : Value) :
    shape.fill (toJsonEntries (Entries.insert name v entries))
        (toJsonAsEntries table (Entries.insert name v entries))
      = Entries.insert name (v.toJsonAs table f.shape)
          (shape.fill (toJsonEntries entries) (toJsonAsEntries table entries)) := by
  obtain rfl := InputObjectShape.name_of_field? hf
  refine InputObjectShape.fill_eq_insert_fill hf
    (answer?_of_find? (Entries.find?_insert_self _ _ _)) ?_ ?_
  · intro l hl
    rw [find?_toJsonAsEntries, find?_toJsonAsEntries, Entries.find?_insert_of_ne hl]
  · intro i
    rw [toJsonEntries_insert, Entries.insert_insert_self]

mutual

/-- Turning a document into a value loses nothing. -/
theorem toJson_ofJson : ∀ d : Json, (ofJson d).toJson = d
  | .null => rfl
  | .bool _ => rfl
  | .num _ => rfl
  | .str _ => rfl
  | .arr items => by rw [ofJson, toJson, toJsonItems_ofJsonItems items]
  | .obj entries => by rw [ofJson, toJson, toJsonEntries_ofJsonEntries entries]

theorem toJsonItems_ofJsonItems : ∀ items : List Json, toJsonItems (ofJsonItems items) = items
  | [] => rfl
  | d :: rest => by
      rw [ofJsonItems, toJsonItems, toJson_ofJson d, toJsonItems_ofJsonItems rest]

theorem toJsonEntries_ofJsonEntries :
    ∀ entries : List (String × Json), toJsonEntries (ofJsonEntries entries) = entries
  | [] => rfl
  | (k, d) :: rest => by
      rw [ofJsonEntries, toJsonEntries, toJson_ofJson d, toJsonEntries_ofJsonEntries rest]

end

theorem toJsonAs_plain (v : Value) : v.toJsonAs table .plain = v.toJson := by
  cases v <;> rfl

/-- A field that converts nothing leaves every default as it is. -/
theorem toJsonAs_ofJson_plain (d : Json) : (ofJson d).toJsonAs table .plain = d :=
  (toJsonAs_plain _).trans (toJson_ofJson d)

end Value

/-! ### From the conditions -/

theorem ShapeTable.Part.eq_toJsonAs {shape sh : ValueShape} {v w : Value} {K : Json}
    (h : table.Part shape v (v.toJsonAs table shape) sh w K) : K = w.toJsonAs table sh := by
  induction h with
  | whole => rfl
  | item i h hw hK ih =>
      rw [Value.toJsonAs_list, Json.arr.injEq] at ih
      rw [ih, List.getElem?_map, hw, Option.map_some, Option.some.injEq] at hK
      exact hK.symm
  | field h hobject hf hw hK ih =>
      rw [Value.toJsonAs_input hobject, Json.obj.injEq] at ih
      have hname := InputObjectShape.name_of_field? hf
      rw [ih, InputObjectShape.find?_fill hf (Value.answer?_of_find? (hname ▸ hw)),
        Option.some.injEq] at hK
      exact hK.symm

/-- A value of this shape contains values of the input `j`. -/
def ValueShape.LeadsTo (table : ShapeTable) (shape : ValueShape) (j : NodeId) : Prop :=
  ∃ i ∈ shape.inputs, Relation.ReflTransGen table.Onward i j

theorem ValueShape.LeadsTo.refl (j : NodeId) : (ValueShape.input j).LeadsTo table j :=
  ⟨j, List.mem_singleton.mpr rfl, .refl⟩

theorem ValueShape.LeadsTo.field {j k : NodeId} {object : InputObjectShape} {name : String}
    {f : InputFieldShape} (hobject : table.filled? j = some object)
    (hf : object.field? name = some f) (h : f.shape.LeadsTo table k) :
    (ValueShape.input j).LeadsTo table k := by
  obtain ⟨i, hi, hk⟩ := h
  exact ⟨j, List.mem_singleton.mpr rfl, hk.head ⟨object, name, f, hobject, hf, hi⟩⟩

/-- What is read inside a value of this shape is read as an input that the shape leads to. -/
theorem ShapeTable.Part.leadsTo {shape sh : ValueShape} {v w : Value} {J K : Json}
    (h : table.Part shape v J sh w K) {j : NodeId} (hj : sh.LeadsTo table j) :
    shape.LeadsTo table j := by
  induction h with
  | whole => exact hj
  | item i h hw hK ih => exact ih hj
  | field h hobject hf hw hK ih => exact ih (hj.field hobject hf)

/-- A table that knows an input knows whatever it leads to. -/
theorem ShapeTable.Complete.contains_of_onward (h : table.Complete r) {i j : NodeId}
    (hi : table.contains i = true) (hj : Relation.ReflTransGen table.Onward i j) :
    table.contains j = true := by
  induction hj with
  | refl => exact hi
  | tail _ hstep ih =>
      obtain ⟨shape, name, f, hshape, hf, hk⟩ := hstep
      obtain ⟨shape', hshape', -, hclosed⟩ := h.filled ih
      obtain rfl : shape = shape' := Option.some.inj (hshape.symm.trans hshape')
      exact hclosed f (InputObjectShape.mem_of_field? hf) _ hk

section

variable {shape : ValueShape}

/-- Giving an advertised default that stands changes nothing. -/
theorem Value.Differ.toJsonAs_eq (h : table.Complete r) {raw raw' : Value}
    (hraw : Differ table r.Supplies shape raw raw')
    (hknown : ∀ j, shape.LeadsTo table j → table.contains j = true)
    (hstand : ∀ j, shape.LeadsTo table j → r.DefaultsStand table j) :
    raw.toJsonAs table shape = raw'.toJsonAs table shape := by
  induction hraw with
  | @here j entries entries' hsupplies =>
      obtain ⟨name, c, d, hc, hd, homitted, rfl⟩ := hsupplies
      obtain ⟨object, hobject, -⟩ := h.filled (hknown j (.refl j))
      obtain ⟨f, hf, hdefault⟩ := h.field?_of_advertises hobject hc
      have hanswer : f.answer? (toJsonAsEntries table entries) = some d := by
        obtain rfl := InputObjectShape.name_of_field? hf
        rw [answer?_of_omitted homitted, hdefault, hd]
      rw [toJsonAs_input hobject, toJsonAs_input hobject, fill_insert hf,
        (hstand j (.refl j)).converted object name c d f hobject hc hd hf,
        InputObjectShape.insert_fill hf hanswer]
  | item before after hv ih =>
      rw [toJsonAs_list, toJsonAs_list, List.map_append, List.map_append, List.map_cons,
        List.map_cons, ih hknown hstand]
  | field entries hobject hf hv ih =>
      rw [toJsonAs_input hobject, toJsonAs_input hobject, fill_insert hf, fill_insert hf,
        ih (fun j hj => hknown j (hj.field hobject hf))
          (fun j hj => hstand j (hj.field hobject hf))]

/-- A field that is left out and has no default is not there, if no other field of its name
has one. -/
theorem Registry.DefaultsStand.get?_eq_none {j : NodeId} (hstand : r.DefaultsStand table j)
    {object : InputObjectShape} (hobject : table.filled? j = some object) {name : String}
    {c : CompiledInput} (hc : r.Advertises j name c) (hd : c.default? = none)
    {entries : List (String × Value)} (homitted : Entries.find? entries name = none) :
    ((Value.obj entries).toJsonAs table (.input j)).get? name = none := by
  rw [Value.toJsonAs_input hobject, Json.get?, InputObjectShape.find?_fill_of_unanswered,
    Value.find?_toJsonEntries, homitted, Option.map_none]
  rintro f hf rfl
  rw [Value.answer?_of_omitted homitted]
  exact hstand.bare object f.name c hobject hc hd f hf rfl

theorem ShapeTable.Complete.fillsAsAdvertised (h : table.Complete r)
    (hknown : ∀ j, shape.LeadsTo table j → table.contains j = true)
    (hstand : ∀ j, shape.LeadsTo table j → r.DefaultsStand table j) :
    table.FillsAsAdvertised r shape := by
  refine ⟨fun raw raw' hraw => hraw.toJsonAs_eq h hknown hstand, ?_⟩
  intro raw j entries K hK name c hc hd homitted
  have hj : shape.LeadsTo table j := hK.leadsTo (.refl j)
  obtain ⟨object, hobject, -⟩ := h.filled (hknown j hj)
  rw [hK.eq_toJsonAs]
  exact (hstand j hj).get?_eq_none hobject hc hd homitted

/-! ### From the claim -/

theorem ShapeTable.Part.trans {sh sh' : ValueShape} {v w w' : Value} {J K K' : Json}
    (h : table.Part shape v J sh w K) (h' : table.Part sh w K sh' w' K') :
    table.Part shape v J sh' w' K' := by
  induction h' with
  | whole => exact h
  | item i _ hw hK ih => exact .item i ih hw hK
  | field _ hobject hf hw hK ih => exact .field ih hobject hf hw hK

namespace ShapeTable.FillsAsAdvertised

/-- A value is converted the same on its own and as the only element of a list. -/
theorem item {item : ValueShape} (h : table.FillsAsAdvertised r (.list item)) :
    table.FillsAsAdvertised r item := by
  refine ⟨fun raw raw' hraw => ?_, fun raw j entries K hK => ?_⟩
  · have heq := h.supplied _ _ (.item [] [] hraw)
    rw [Value.toJsonAs_list, Value.toJsonAs_list] at heq
    simpa using heq
  · refine h.absent (.list [raw]) j entries K ?_
    rw [Value.toJsonAs_list]
    exact Part.trans (.item 0 .whole rfl rfl) hK

/-- A value is converted the same on its own and as the field of an object that counts for
its name. -/
theorem field {j : NodeId} {object : InputObjectShape} {name : String} {f : InputFieldShape}
    (hobject : table.filled? j = some object) (hf : object.field? name = some f)
    (h : table.FillsAsAdvertised r (.input j)) : table.FillsAsAdvertised r f.shape := by
  have hfind : ∀ v : Value, ((Value.obj (Entries.insert name v [])).toJsonAs table (.input j)).get?
      name = some (v.toJsonAs table f.shape) := fun v => by
    rw [Value.toJsonAs_input hobject, Value.fill_insert hf, Json.get?, Entries.find?_insert_self]
  refine ⟨fun raw raw' hraw => ?_, fun raw k entries K hK => ?_⟩
  · have heq := h.supplied _ _ (.field [] hobject hf hraw)
    have hget := hfind raw
    rw [heq, hfind raw', Option.some.injEq] at hget
    exact hget.symm
  · refine h.absent (.obj (Entries.insert name raw [])) k entries K ?_
    have hget := hfind raw
    rw [Value.toJsonAs_input hobject, Json.get?] at hget
    rw [Value.toJsonAs_input hobject]
    exact Part.trans (.field .whole hobject hf (Entries.find?_insert_self _ _ _) hget) hK

theorem of_mem_inputs (h : table.FillsAsAdvertised r shape) {j : NodeId}
    (hj : j ∈ shape.inputs) : table.FillsAsAdvertised r (.input j) := by
  induction shape with
  | plain => cases hj
  | enum d => cases hj
  | list item ih => exact ih h.item hj
  | input i =>
      rw [List.mem_singleton.mp hj]
      exact h

theorem onward {i j : NodeId} (h : table.FillsAsAdvertised r (.input i))
    (hj : Relation.ReflTransGen table.Onward i j) : table.FillsAsAdvertised r (.input j) := by
  induction hj with
  | refl => exact h
  | tail _ hstep ih =>
      obtain ⟨object, name, f, hobject, hf, hk⟩ := hstep
      exact (ih.field hobject hf).of_mem_inputs hk

/-- Leaving everything out shows whether the defaults stand. -/
theorem defaultsStand {j : NodeId} (hc : table.Complete r)
    (h : table.FillsAsAdvertised r (.input j)) : r.DefaultsStand table j := by
  constructor
  case converted =>
    intro object name c d f hobject hadvertised hd hf
    have heq := h.supplied (.obj []) _ (.here ⟨name, c, d, hadvertised, hd, rfl, rfl⟩)
    rw [Value.toJsonAs_input hobject, Value.toJsonAs_input hobject, Value.fill_insert hf,
      Json.obj.injEq] at heq
    obtain ⟨f', hf', hdefault⟩ := hc.field?_of_advertises hobject hadvertised
    obtain rfl : f = f' := Option.some.inj (hf.symm.trans hf')
    have hanswer : f.answer? (Value.toJsonAsEntries table []) = some d := by
      rw [Value.answer?_of_omitted rfl, hdefault, hd]
    have hfind : Entries.find? (object.fill (Value.toJsonEntries [])
        (Value.toJsonAsEntries table [])) name = some d := InputObjectShape.find?_fill hf hanswer
    rw [heq, Entries.find?_insert_self, Option.some.injEq] at hfind
    exact hfind
  case bare =>
    rintro object _ c hobject hadvertised hd f hf rfl
    cases hdefault : f.default? with
    | none => rfl
    | some d =>
        have hanswer : f.answer? (Value.toJsonAsEntries table []) = some d := by
          rw [Value.answer?_of_omitted rfl, hdefault]
        have habsent := h.absent (.obj []) j [] _ .whole f.name c hadvertised hd rfl
        rw [Value.toJsonAs_input hobject] at habsent
        exact absurd habsent (InputObjectShape.find?_fill_ne_none hf hanswer)

end ShapeTable.FillsAsAdvertised

end

/-- An input object that a compiler knows is completed as the schema says exactly when
whatever it leads to takes its advertised defaults for what they are. -/
theorem CompileState.Reaches.fillsAsAdvertised_iff (hs : Reaches r {} s) {j : NodeId}
    (hj : s.shapes.contains j = true) : s.shapes.FillsAsAdvertised r (.input j) ↔
      ∀ k, Relation.ReflTransGen s.shapes.Onward j k → r.DefaultsStand s.shapes k := by
  have hcomplete : s.shapes.Complete r := hs.settled.sound.shapes
  have hleads : ∀ {k}, (ValueShape.input j).LeadsTo s.shapes k →
      Relation.ReflTransGen s.shapes.Onward j k := by
    rintro k ⟨i, hi, hk⟩
    rw [List.mem_singleton.mp hi] at hk
    exact hk
  constructor
  · exact fun h k hk => (h.onward hk).defaultsStand hcomplete
  · exact fun h => hcomplete.fillsAsAdvertised
      (fun k hk => hcomplete.contains_of_onward hj (hleads hk)) fun k hk => h k (hleads hk)

/-! ### A feed

One bundle has a number for a default, the other the name of an enum value. -/

namespace Feed

def paging : HostType := ⟨"Paging"⟩

def sorting : HostType := ⟨"Sorting"⟩

def query : HostType := ⟨"Query"⟩

def order : EnumDef := ⟨"Order", none,
  [⟨"NEW", .num (.int 1), none, none⟩, ⟨"OLD", .num (.int 2), none, none⟩]⟩

/-- The bundles are nodes 1 and 3, the fields that take them nodes 4 and 5. -/
def registry : Registry := .ofDeclarations [
  .inputField paging { name := "first", type? := some .int, default? := some (.num (.int 10)) },
  .args ⟨paging, fun j => .ok ⟨paging, j, []⟩⟩,
  .inputField sorting
    { name := "order", type? := some (.enum order), default? := some (.str "NEW") },
  .args ⟨sorting, fun j => .ok ⟨sorting, j, []⟩⟩,
  .field query { name := "page", type? := some .string, args? := some paging },
  .field query { name := "sorted", type? := some .string, args? := some sorting },
  .object query {}]

/-- A compiler that was asked for both fields. -/
def compiled : CompileState := (Request.fieldMap "Query" [4, 5]).after registry {}

theorem reaches_compiled : Reaches registry {} compiled := by
  obtain ⟨a, hask⟩ := Request.ask_of_isAnswered
    (show (Request.fieldMap "Query" [4, 5]).isAnswered registry {} = true by decide)
  exact .single ⟨_, a, hask⟩

theorem filled_paging : compiled.shapes.filled? 1 = some
    ⟨"Paging", [⟨"first", .plain, some (.num (.int 10))⟩],
      ⟨paging, fun j => .ok ⟨paging, j, []⟩⟩⟩ :=
  rfl

theorem filled_sorting : compiled.shapes.filled? 3 = some
    ⟨"Sorting", [⟨"order", .enum order, some (.str "NEW")⟩],
      ⟨sorting, fun j => .ok ⟨sorting, j, []⟩⟩⟩ :=
  rfl

/-- Where nothing is converted a default is what it is. -/
theorem paging_fillsAsAdvertised : ∃ s, Reaches registry {} s ∧
    s.shapes.contains 1 = true ∧ s.shapes.FillsAsAdvertised registry (.input 1) := by
  refine ⟨compiled, reaches_compiled, rfl, ?_⟩
  refine (reaches_compiled.fillsAsAdvertised_iff rfl).mpr fun k hk => ?_
  have hfield : ∀ {shape : InputObjectShape} {f : InputFieldShape},
      compiled.shapes.filled? 1 = some shape → f ∈ shape.fields →
      f = ⟨"first", .plain, some (.num (.int 10))⟩ := by
    intro shape f hshape hf
    obtain rfl := Option.some.inj (filled_paging.symm.trans hshape)
    exact List.mem_singleton.mp hf
  have honly : k = 1 := by
    induction hk with
    | refl => rfl
    | tail _ hstep ih =>
        obtain ⟨shape, name, f, hshape, hf, hk⟩ := hstep
        rw [hfield (ih ▸ hshape) (InputObjectShape.mem_of_field? hf)] at hk
        cases hk
  subst honly
  constructor
  case converted =>
    intro shape name c d f hshape _ _ hf
    rw [hfield hshape (InputObjectShape.mem_of_field? hf)]
    exact Value.toJsonAs_ofJson_plain d
  case bare =>
    intro shape name c hshape hc hd
    obtain ⟨f, hf, hdefault⟩ :=
      ShapeTable.Complete.field?_of_advertises reaches_compiled.settled.sound.shapes hshape hc
    rw [hfield hshape (InputObjectShape.mem_of_field? hf), hd] at hdefault
    cases hdefault

theorem sorting_not_fillsAsAdvertised : ∃ s, Reaches registry {} s ∧
    s.shapes.contains 3 = true ∧
    registry.Advertises 3 "order" ⟨"order", none, .nonNull (.named "Order"), some (.str "NEW")⟩ ∧
    ¬ s.shapes.FillsAsAdvertised registry (.input 3) := by
  have hadvertised : registry.Advertises 3 "order"
      ⟨"order", none, .nonNull (.named "Order"), some (.str "NEW")⟩ := ⟨"Sorting", _, rfl, rfl⟩
  refine ⟨compiled, reaches_compiled, rfl, hadvertised, fun h => ?_⟩
  have hstand := h.defaultsStand reaches_compiled.settled.sound.shapes
  have hconverted : Json.num (.int 1) = .str "NEW" :=
    hstand.converted _ _ _ _ _ filled_sorting hadvertised rfl rfl
  cases hconverted

end Feed

end SchemaGraph
