import SchemaGraph.Proofs.Input.Enums
import SchemaGraph.Proofs.Input.Frame

/-!
# Values and documents, there and back

Properties of instances, defaults and arguments cross between values and documents in both
directions. Whatever a document holds has a value of its own kind, so on the way through
values nothing is lost. Values have two kinds that documents lack: an enum comes back as the
string of its name and a binary as the list of its bytes, however deep inside, and nothing
else is different.

The order in which an object keeps its entries means nothing, and whoever writes values as
documents may choose another. So two values, or two documents, are compared position by
position; an object shows no more than that it is one, and its keys are the steps that lead on.
The statements hold of every writing that keeps the rules of `Value.Writes`, and what such a
writing answers is what `Value.toJson` answers, up to the order of entries.
-/

set_option autoImplicit false

namespace SchemaGraph

/-! ## Comparing without the order of entries -/

/-- Two documents with the same at every position. -/
def Json.Alike (d e : Json) : Prop := ∀ p, (d.at? p).map Json.head = (e.at? p).map Json.head

namespace Value

/-- A value without what is inside it. -/
inductive Head where
  | null
  | bool (value : Bool)
  | num (value : Number)
  | str (value : String)
  | enum (name : String)
  | binary (bytes : List UInt8)
  | list (length : Nat)
  | obj

def head : Value → Head
  | .null => .null
  | .bool b => .bool b
  | .num n => .num n
  | .str s => .str s
  | .enum name => .enum name
  | .binary bytes => .binary bytes
  | .list items => .list items.length
  | .obj _ => .obj

/-- Two values with the same at every position. -/
def Alike (v w : Value) : Prop := ∀ p, (v.at? p).map head = (w.at? p).map head

/-- No enum and no binary occurs anywhere inside the value, nor is it one. -/
def Plain (v : Value) : Prop :=
  ∀ p, (∀ name, v.at? p ≠ some (.enum name)) ∧ ∀ bytes, v.at? p ≠ some (.binary bytes)

mutual

/-- The value with every enum replaced by the string of its name, and every binary by the list
of its bytes. -/
def lowered : Value → Value
  | .null => .null
  | .bool b => .bool b
  | .num n => .num n
  | .str s => .str s
  | .enum name => .str name
  | .binary bytes => .list (bytes.map fun b => .num (.int b.toNat))
  | .list items => .list (loweredItems items)
  | .obj entries => .obj (loweredEntries entries)
termination_by structural v => v

def loweredItems : List Value → List Value
  | [] => []
  | v :: rest => lowered v :: loweredItems rest
termination_by structural items => items

def loweredEntries : List (String × Value) → List (String × Value)
  | [] => []
  | (k, v) :: rest => (k, lowered v) :: loweredEntries rest
termination_by structural entries => entries

end

/-- A way of writing values as documents, which may fail. An enum is written as its name and a
binary as the list of its bytes. A list or an object is written if everything in it is: items
keep their places, and entries their keys but not their order. -/
structure Writes {ε : Type} (write : Value → Except ε Json) : Prop where
  null : write .null = .ok .null
  bool : ∀ b, write (.bool b) = .ok (.bool b)
  num : ∀ n, write (.num n) = .ok (.num n)
  str : ∀ s, write (.str s) = .ok (.str s)
  enum : ∀ name, write (.enum name) = .ok (.str name)
  binary : ∀ bytes : List UInt8,
    write (.binary bytes) = .ok (.arr (bytes.map fun b => .num (.int b.toNat)))
  list : ∀ items : List Value, (∀ v ∈ items, ∃ d, write v = .ok d) →
    ∃ documents : List Json, write (.list items) = .ok (.arr documents) ∧
      items.map write = documents.map .ok
  obj : ∀ entries : List (String × Value),
    (∀ k v, Entries.find? entries k = some v → ∃ d, write v = .ok d) →
    ∃ documents : List (String × Json), write (.obj entries) = .ok (.obj documents) ∧
      ∀ k, (Entries.find? entries k).map write = (Entries.find? documents k).map .ok

end Value

/-! ## Step by step

Being alike is a matter of the root and of every single step: two objects are alike if they
have the same keys and alike things under each of them. -/

section

variable {α β : Type} {at? : α → List Step → Option α} {step? : α → Step → Option α}
  {head : α → β}

/-- Being the same at every position, for anything that has positions. -/
theorem forall_positions_iff (hroot : ∀ x, at? x [] = some x)
    (hstep : ∀ x a p, at? x (a :: p) = (step? x a).bind fun y => at? y p) {x y : α} :
    (∀ p, (at? x p).map head = (at? y p).map head) ↔ head x = head y ∧
      ∀ a, Option.Rel (fun x y => ∀ p, (at? x p).map head = (at? y p).map head)
        (step? x a) (step? y a) := by
  constructor
  · intro h
    refine ⟨?_, fun a => ?_⟩
    · have hhead := h []
      rwa [hroot, hroot, Option.map_some, Option.map_some, Option.some.injEq] at hhead
    · have hafter : ∀ p, ((step? x a).bind fun y => at? y p).map head
          = ((step? y a).bind fun y => at? y p).map head := by
        intro p
        rw [← hstep, ← hstep]
        exact h (a :: p)
      generalize step? x a = x', step? y a = y' at hafter
      -- a step that leads on in one of them only leads to a root that the other does not have
      have hhere := hafter []
      cases x' with
      | none =>
          cases y' with
          | none => exact .none
          | some y' => simp [hroot] at hhere
      | some x' =>
          cases y' with
          | none => simp [hroot] at hhere
          | some y' => exact .some hafter
  · rintro ⟨hhead, hsteps⟩ p
    cases p with
    | nil => rw [hroot, hroot, Option.map_some, Option.map_some, hhead]
    | cons a p =>
        rw [hstep, hstep]
        have hafter := hsteps a
        generalize step? x a = x', step? y a = y' at hafter ⊢
        cases hafter with
        | none => rfl
        | some h => exact h p

end

theorem Json.alike_iff {d e : Json} :
    d.Alike e ↔ d.head = e.head ∧ ∀ a, Option.Rel Json.Alike (d.step? a) (e.step? a) :=
  forall_positions_iff (fun _ => rfl) fun _ _ _ => rfl

namespace Value

variable {v w : Value} {a : Step}

theorem alike_iff :
    v.Alike w ↔ v.head = w.head ∧ ∀ a, Option.Rel Alike (v.step? a) (w.step? a) :=
  forall_positions_iff (fun _ => rfl) fun _ _ _ => rfl

theorem Alike.trans {u : Value} (h : u.Alike v) (h' : v.Alike w) : u.Alike w :=
  fun p => (h p).trans (h' p)

theorem Plain.step (h : v.Plain) (hstep : v.step? a = some w) : w.Plain := by
  intro p
  have hat : v.at? (a :: p) = w.at? p := by rw [at?, hstep, Option.bind_some]
  rw [← hat]
  exact h (a :: p)

/-- What is one step inside a value is smaller. -/
theorem sizeOf_lt_of_step? (h : v.step? a = some w) : sizeOf w < sizeOf v := by
  unfold step? at h
  split at h
  · next items i =>
      have := List.sizeOf_lt_of_mem (List.mem_of_getElem? h)
      simp only [list.sizeOf_spec]
      omega
  · next entries k =>
      have := List.sizeOf_lt_of_mem (OrderedMap.mem_of_lookup h)
      simp only [obj.sizeOf_spec, Prod.mk.sizeOf_spec] at this ⊢
      omega
  · cases h

/-- Going down step by step, into lists and objects in one induction. -/
@[elab_as_elim]
theorem induct_step {motive : Value → Prop}
    (ofParts : ∀ v, (∀ a w, v.step? a = some w → motive w) → motive v) (v : Value) : motive v :=
  ofParts v fun a w h => have := sizeOf_lt_of_step? h; induct_step ofParts w
termination_by sizeOf v

end Value

/-! ## Documents as values

A position of a document is a position of the value made of it, and what is there is made of
what was there. -/

namespace Value

/-- The head of the value that is made of a document with this head. -/
def Head.ofJson : Json.Head → Head
  | .null => .null
  | .bool b => .bool b
  | .num n => .num n
  | .str s => .str s
  | .arr length => .list length
  | .obj => .obj

theorem head_ofJson (d : Json) : (ofJson d).head = .ofJson d.head := by
  cases d with
  | null | bool _ | num _ | str _ | obj _ => rfl
  | arr items => rw [ofJson, ofJsonItems_eq_map, head, List.length_map]; rfl

theorem ofJsonEntries_eq_map (entries : List (String × Json)) :
    ofJsonEntries entries = entries.map fun e => (e.1, ofJson e.2) := by
  induction entries with
  | nil => rfl
  | cons e rest ih => rw [ofJsonEntries, ih, List.map_cons]

theorem step?_ofJson (d : Json) (a : Step) : (ofJson d).step? a = (d.step? a).map ofJson := by
  cases d with
  | null | bool _ | num _ | str _ => rfl
  | arr items =>
      cases a with
      | key k => rfl
      | index i =>
          rw [ofJson, ofJsonItems_eq_map]
          exact List.getElem?_map
  | obj entries =>
      cases a with
      | index i => rfl
      | key k =>
          rw [ofJson, ofJsonEntries_eq_map]
          exact Entries.find?_map ofJson entries k

theorem at?_ofJson (d : Json) (p : List Step) : (ofJson d).at? p = (d.at? p).map ofJson := by
  induction p generalizing d with
  | nil => rfl
  | cons a p ih =>
      rw [at?, Json.at?, step?_ofJson]
      cases d.step? a with
      | none => rfl
      | some e => exact ih e

theorem head_at?_ofJson (d : Json) (p : List Step) :
    ((ofJson d).at? p).map head = ((d.at? p).map Json.head).map .ofJson := by
  rw [at?_ofJson]
  cases d.at? p with
  | none => rfl
  | some e => exact congrArg some (head_ofJson e)

/-- Alike documents make alike values. -/
theorem alike_ofJson {d e : Json} (h : d.Alike e) : (ofJson d).Alike (ofJson e) := by
  intro p
  rw [head_at?_ofJson, head_at?_ofJson, h p]

/-- A value like one that is made of a document has no enums and no binaries: no document has
a head that would be made one. -/
theorem plain_of_alike_ofJson {d : Json} {v : Value} (h : (ofJson d).Alike v) : v.Plain := by
  intro p
  have hmade : ∀ w, v.at? p = some w → ∃ document, Head.ofJson document = w.head := by
    intro w hw
    have hp := h p
    rw [head_at?_ofJson, hw] at hp
    obtain ⟨document, -, hdocument⟩ := Option.map_eq_some_iff.mp hp
    exact ⟨document, hdocument⟩
  constructor
  · intro name hname
    obtain ⟨document, hdocument⟩ := hmade _ hname
    cases document <;> cases hdocument
  · intro bytes hbytes
    obtain ⟨document, hdocument⟩ := hmade _ hbytes
    cases document <;> cases hdocument

/-! ## What is lost -/

variable {v : Value}

mutual

/-- By way of a document each value is lowered. -/
theorem ofJson_toJson : ∀ v : Value, ofJson v.toJson = v.lowered
  | .null => rfl
  | .bool _ => rfl
  | .num _ => rfl
  | .str _ => rfl
  | .enum _ => rfl
  | .binary bytes => by
      rw [toJson, ofJson, ofJsonItems_eq_map, List.map_map, lowered]
      rfl
  | .list items => by rw [toJson, ofJson, lowered, ofJsonItems_toJsonItems items]
  | .obj entries => by rw [toJson, ofJson, lowered, ofJsonEntries_toJsonEntries entries]

theorem ofJsonItems_toJsonItems :
    ∀ items : List Value, ofJsonItems (toJsonItems items) = loweredItems items
  | [] => rfl
  | v :: rest => by
      rw [toJsonItems, ofJsonItems, loweredItems, ofJson_toJson v, ofJsonItems_toJsonItems rest]

theorem ofJsonEntries_toJsonEntries :
    ∀ entries : List (String × Value),
      ofJsonEntries (toJsonEntries entries) = loweredEntries entries
  | [] => rfl
  | (k, v) :: rest => by
      rw [toJsonEntries, ofJsonEntries, loweredEntries, ofJson_toJson v,
        ofJsonEntries_toJsonEntries rest]

end

theorem loweredItems_eq_map (items : List Value) : loweredItems items = items.map lowered := by
  induction items with
  | nil => rfl
  | cons v rest ih => rw [loweredItems, ih, List.map_cons]

theorem loweredEntries_eq_map (entries : List (String × Value)) :
    loweredEntries entries = entries.map fun e => (e.1, e.2.lowered) := by
  induction entries with
  | nil => rfl
  | cons e rest ih => rw [loweredEntries, ih, List.map_cons]

theorem Plain.head_lowered (h : v.Plain) : v.lowered.head = v.head := by
  cases v with
  | null | bool _ | num _ | str _ | obj _ => rfl
  | enum name => exact absurd rfl ((h []).1 name)
  | binary bytes => exact absurd rfl ((h []).2 bytes)
  | list items => rw [lowered, loweredItems_eq_map, head, head, List.length_map]

theorem Plain.step?_lowered (h : v.Plain) (a : Step) :
    v.lowered.step? a = (v.step? a).map lowered := by
  cases v with
  | null | bool _ | num _ | str _ | enum _ => rfl
  | binary bytes => exact absurd rfl ((h []).2 bytes)
  | list items =>
      cases a with
      | key k => rfl
      | index i =>
          rw [lowered, loweredItems_eq_map]
          exact List.getElem?_map
  | obj entries =>
      cases a with
      | index i => rfl
      | key k =>
          rw [lowered, loweredEntries_eq_map]
          exact Entries.find?_map lowered entries k

/-- Where there is nothing to lower, the value stays what it is. -/
theorem Plain.lowered_alike (h : v.Plain) : v.lowered.Alike v := by
  induction v using induct_step with
  | ofParts v ih =>
      refine alike_iff.mpr ⟨h.head_lowered, fun a => ?_⟩
      rw [h.step?_lowered]
      cases hstep : v.step? a with
      | none => exact .none
      | some w => exact .some (ih a w hstep (h.step hstep))

/-! ## Writing

Whatever the rules leave open, positions do not see. -/

section

variable {ε : Type} {write : Value → Except ε Json}

/-- What may be in a place is written as what is in the same place of the document. -/
theorem rel_of_written {x : Option Value} {y : Option Json} (hxy : x.map write = y.map .ok)
    (hx : ∀ w, x = some w → ∃ d, write w = .ok d ∧ d.Alike w.toJson) :
    Option.Rel Json.Alike y (x.map toJson) := by
  cases x with
  | none =>
      obtain rfl : y = none := Option.map_eq_none_iff.mp hxy.symm
      exact .none
  | some w =>
      obtain ⟨e, rfl, he⟩ := Option.map_eq_some_iff.mp hxy.symm
      obtain ⟨d, hd, halike⟩ := hx w rfl
      obtain rfl : e = d := Except.ok.inj (he.trans hd)
      exact .some halike

theorem alike_arr {items : List Value} {documents : List Json}
    (hmap : items.map write = documents.map .ok)
    (hitems : ∀ (i : Nat) w, items[i]? = some w → ∃ d, write w = .ok d ∧ d.Alike w.toJson) :
    (Json.arr documents).Alike (toJson (.list items)) := by
  rw [toJson, toJsonItems_eq_map]
  refine Json.alike_iff.mpr ⟨?_, fun a => ?_⟩
  · have hlength := congrArg List.length hmap
    rw [List.length_map, List.length_map] at hlength
    rw [Json.head, Json.head, List.length_map, hlength]
  · cases a with
    | key k => exact .none
    | index i =>
        have hitem := congrArg (fun l => l[i]?) hmap
        simp only [List.getElem?_map] at hitem
        rw [Json.step?, Json.step?, List.getElem?_map]
        exact rel_of_written hitem (hitems i)

theorem alike_obj {entries : List (String × Value)} {documents : List (String × Json)}
    (hmap : ∀ k, (Entries.find? entries k).map write = (Entries.find? documents k).map .ok)
    (hentries : ∀ k w, Entries.find? entries k = some w →
      ∃ d, write w = .ok d ∧ d.Alike w.toJson) :
    (Json.obj documents).Alike (toJson (.obj entries)) := by
  rw [toJson]
  refine Json.alike_iff.mpr ⟨rfl, fun a => ?_⟩
  cases a with
  | index i => exact .none
  | key k =>
      rw [Json.step?, Json.step?, find?_toJsonEntries]
      exact rel_of_written (hmap k) (hentries k)

/-- The rules leave no choice but the order of entries, and they never fail. -/
theorem Writes.exists_alike (h : Writes write) (v : Value) :
    ∃ d, write v = .ok d ∧ d.Alike v.toJson := by
  induction v using induct_step with
  | ofParts v ih =>
      cases v with
      | null => exact ⟨_, h.null, fun _ => rfl⟩
      | bool b => exact ⟨_, h.bool b, fun _ => rfl⟩
      | num n => exact ⟨_, h.num n, fun _ => rfl⟩
      | str s => exact ⟨_, h.str s, fun _ => rfl⟩
      | enum name => exact ⟨_, h.enum name, fun _ => rfl⟩
      | binary bytes => exact ⟨_, h.binary bytes, fun _ => rfl⟩
      | list items =>
          have hwritten : ∀ w ∈ items, ∃ d, write w = .ok d := by
            intro w hw
            obtain ⟨i, hi⟩ := List.mem_iff_getElem?.mp hw
            exact (ih (.index i) w hi).imp fun _ hd => hd.1
          obtain ⟨documents, hdocuments, hmap⟩ := h.list items hwritten
          exact ⟨_, hdocuments, alike_arr hmap fun i => ih (.index i)⟩
      | obj entries =>
          have hwritten : ∀ k w, Entries.find? entries k = some w → ∃ d, write w = .ok d :=
            fun k w hw => (ih (.key k) w hw).imp fun _ hd => hd.1
          obtain ⟨documents, hdocuments, hmap⟩ := h.obj entries hwritten
          exact ⟨_, hdocuments, alike_obj hmap fun k => ih (.key k)⟩

/-- Documents survive the way through values, and values the way through documents exactly if
there is no enum and no binary anywhere inside. -/
theorem Writes.roundTrips (h : Writes write) :
    (∀ d, ∃ e, write (ofJson d) = .ok e ∧ e.Alike d) ∧
      ∀ v, ∃ d, write v = .ok d ∧ d.Alike v.toJson ∧
        (ofJson d).Alike v.lowered ∧ ((ofJson d).Alike v ↔ v.Plain) := by
  refine ⟨fun d => ?_, fun v => ?_⟩
  · obtain ⟨e, he, halike⟩ := h.exists_alike (ofJson d)
    rw [toJson_ofJson] at halike
    exact ⟨e, he, halike⟩
  · obtain ⟨d, hd, halike⟩ := h.exists_alike v
    have hlowered := alike_ofJson halike
    rw [ofJson_toJson] at hlowered
    exact ⟨d, hd, halike, hlowered, plain_of_alike_ofJson,
      fun hplain => hlowered.trans hplain.lowered_alike⟩

/-- `toJson` keeps the rules, and the order of entries too. -/
theorem writes_toJson : Writes fun v => (.ok v.toJson : Except ε Json) where
  null := rfl
  bool _ := rfl
  num _ := rfl
  str _ := rfl
  enum _ := rfl
  binary _ := rfl
  list items _ := by
    refine ⟨items.map toJson, ?_, ?_⟩
    · rw [toJson, toJsonItems_eq_map]
    · rw [List.map_map]
      rfl
  obj entries _ := by
    refine ⟨toJsonEntries entries, by rw [toJson], fun k => ?_⟩
    rw [find?_toJsonEntries, Option.map_map]
    rfl

end

end Value

/-! ### A draft

A binary, and an enum below a list and an object. -/

namespace Drafts

open Value

def write (v : Value) : Except DecodeError Json := .ok v.toJson

def settings : Json :=
  .obj [("limit", .num (.int 20)), ("tags", .arr [.str "new", .null, .obj [("on", .bool true)]])]

def draft : Value :=
  .obj [("picture", .binary [1, 255]),
    ("reviews", .list [.null, .obj [("verdict", .enum "ACCEPT")]]), ("title", .str "Notes")]

def published : Value :=
  .obj [("picture", .list [.num (.int 1), .num (.int 255)]),
    ("reviews", .list [.null, .obj [("verdict", .str "ACCEPT")]]), ("title", .str "Notes")]

theorem draft_returns_lowered :
    Writes write ∧ (∃ e, write (ofJson settings) = .ok e ∧ e.Alike settings) ∧
      ∃ d, write draft = .ok d ∧ (ofJson d).Alike published ∧ ¬ (ofJson d).Alike draft := by
  have hwrites : Writes write := writes_toJson
  obtain ⟨hdocuments, hvalues⟩ := hwrites.roundTrips
  obtain ⟨d, hd, -, hlowered, hplain⟩ := hvalues draft
  refine ⟨hwrites, hdocuments settings, d, hd, hlowered, fun h => ?_⟩
  -- a plain value has no enum at any position, and here is one
  exact (hplain.mp h [.key "reviews", .index 1, .key "verdict"]).1 "ACCEPT" rfl

end Drafts

end SchemaGraph
