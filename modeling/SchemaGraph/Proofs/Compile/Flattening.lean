import SchemaGraph.Proofs.Compile.Requests
import SchemaGraph.Proofs.Declared.Ancestry

/-!
# How the fields of an object are flattened

An object has the fields of its interfaces, of its ancestors and its own, all in
one map. Two things are decided on the way: the place of a name, which is where
the name is offered first, and the declaration that counts for it, which is the
nearest one on the chain or else the first one an interface offers. Places go by
interfaces first and then from the farthest ancestor to the object itself, so
the two orders run against each other, and no single pass over the declarations
could do for both.

Here both are read off the declarations, without the map, and the compiled
object is shown to follow them.
-/

set_option autoImplicit false

namespace SchemaGraph

open Compile

variable {r : Registry}

/-! ## Members by name -/

namespace Registry

/-- The names that some members declare. -/
def names (r : Registry) (ids : List NodeId) : List String :=
  ids.filterMap fun id => (r.node id).memberName?

/-- The first declaration of a name. -/
def firstNamed? (r : Registry) (name : String) (ids : List NodeId) : Option NodeId :=
  ids.find? fun id => (r.node id).memberName? = some name

/-- The last declaration of a name. -/
def lastNamed? (r : Registry) (name : String) (ids : List NodeId) : Option NodeId :=
  r.firstNamed? name ids.reverse

theorem firstNamed?_eq_none {name : String} {ids : List NodeId} :
    r.firstNamed? name ids = none ↔ name ∉ r.names ids := by
  simp [firstNamed?, names]

theorem lastNamed?_eq_none {name : String} {ids : List NodeId} :
    r.lastNamed? name ids = none ↔ name ∉ r.names ids := by
  rw [lastNamed?, firstNamed?_eq_none, names, names, List.filterMap_reverse, List.mem_reverse]

theorem firstNamed?_eq_some {name : String} {ids : List NodeId} {i : NodeId}
    (h : r.firstNamed? name ids = some i) : i ∈ ids ∧ (r.node i).memberName? = some name := by
  refine ⟨List.mem_of_find?_eq_some h, ?_⟩
  simpa using List.find?_some h

theorem lastNamed?_eq_some {name : String} {ids : List NodeId} {i : NodeId}
    (h : r.lastNamed? name ids = some i) : i ∈ ids ∧ (r.node i).memberName? = some name := by
  obtain ⟨hmem, hname⟩ := firstNamed?_eq_some h
  exact ⟨List.mem_reverse.mp hmem, hname⟩

theorem lastNamed?_cons (name : String) (id : NodeId) (rest : List NodeId) :
    r.lastNamed? name (id :: rest) = (r.lastNamed? name rest).or
      (if (r.node id).memberName? = some name then some id else none) := by
  rw [lastNamed?, firstNamed?, List.reverse_cons, List.find?_append, List.find?_cons]
  congr 1
  by_cases h : (r.node id).memberName? = some name
  · rw [decide_eq_true h, if_pos h]
  · rw [decide_eq_false h, if_neg h]
    rfl

/-! ## What counts -/

/-- The interfaces at the ends of the implements edges of an object. -/
def implemented (r : Registry) (o : NodeId) : List NodeId :=
  (r.edgesOf o).filterMap r.target?

/-- The interfaces of a chain, from the nearest object to the farthest, in the
order in which they are met first. -/
def interfaceOrder (r : Registry) (chain : List NodeId) : List NodeId :=
  (chain.flatMap r.implemented).eraseDups

/-- The declaration that counts for a name: the last one of the nearest object
that declares it, else the first one of the interfaces. -/
def flattened? (r : Registry) (chain interfaces : List NodeId) (name : String) :
    Option NodeId :=
  (chain.findSome? fun o => r.lastNamed? name (objectFields r o)).or
    (r.firstNamed? name (interfaces.flatMap (interfaceFields r)))

/-- All names, each in the place where it is declared first by the interfaces
and then by the objects from the farthest to the nearest. -/
def flattenedNames (r : Registry) (chain interfaces : List NodeId) : List String :=
  (r.names (interfaces.flatMap (interfaceFields r)
    ++ chain.reverse.flatMap (objectFields r))).eraseDups

theorem mem_flattenedNames {chain interfaces : List NodeId} {name : String} :
    name ∈ r.flattenedNames chain interfaces ↔
      (∃ o ∈ chain, name ∈ r.names (objectFields r o)) ∨
        ∃ i ∈ interfaces, name ∈ r.names (interfaceFields r i) := by
  simp only [flattenedNames, List.mem_eraseDups, names, List.mem_filterMap, List.mem_append,
    List.mem_flatMap, List.mem_reverse]
  constructor
  · rintro ⟨id, ⟨i, hi, hid⟩ | ⟨o, ho, hid⟩, hname⟩
    · exact Or.inr ⟨i, hi, id, hid, hname⟩
    · exact Or.inl ⟨o, ho, id, hid, hname⟩
  · rintro (⟨o, ho, id, hid, hname⟩ | ⟨i, hi, id, hid, hname⟩)
    · exact ⟨id, Or.inr ⟨o, ho, hid⟩, hname⟩
    · exact ⟨id, Or.inl ⟨i, hi, hid⟩, hname⟩

end Registry

/-! ## Interfaces in order -/

namespace Compile

/-- Collecting targets collects them in the order in which they come first. -/
theorem foldl_targets (edges : List NodeId) : ∀ found : List NodeId,
    edges.foldl
      (fun found edge =>
        match (r.node edge).implement? with
        | some e => if found.contains e.interface then found else found ++ [e.interface]
        | none => found) found.eraseDups
      = (found ++ edges.filterMap r.target?).eraseDups := by
  induction edges with
  | nil =>
      intro found
      rw [List.filterMap_nil, List.append_nil]
      rfl
  | cons edge rest ih =>
      intro found
      rw [List.foldl_cons]
      cases hm : (r.node edge).implement? with
      | none =>
          have htarget : r.target? edge = none := by simp [Registry.target?, hm]
          rw [List.filterMap_cons_none htarget]
          exact ih found
      | some e =>
          have htarget : r.target? edge = some e.interface := by
            simp [Registry.target?, hm]
          have hstep : (found ++ [e.interface]).eraseDups
              = if found.eraseDups.contains e.interface = true then found.eraseDups
                else found.eraseDups ++ [e.interface] := by
            rw [OrderedMap.eraseDups_concat]
            simp only [List.contains_iff_mem, List.mem_eraseDups]
          rw [List.filterMap_cons_some htarget, ← List.singleton_append, ← List.append_assoc,
            ← ih, hstep]

theorem chainInterfaces_eq (chain : List NodeId) :
    chainInterfaces r chain = r.interfaceOrder chain := by
  refine (foldl_targets _ []).trans ?_
  rw [List.nil_append, List.filterMap_flatMap]
  rfl

/-! ## The map of declarations -/

/-- Members under their names. -/
def named (r : Registry) (ids : List NodeId) : List (String × NodeId) :=
  ids.filterMap fun id => (r.node id).memberName?.map (·, id)

theorem map_fst_named (ids : List NodeId) : (named r ids).map Prod.fst = r.names ids := by
  rw [named, Registry.names, List.map_filterMap]
  refine List.filterMap_congr fun id _ => ?_
  cases (r.node id).memberName? <;> rfl

theorem lookup_named (name : String) (ids : List NodeId) :
    (named r ids).lookup name = r.firstNamed? name ids := by
  induction ids with
  | nil => rfl
  | cons id rest ih =>
      rw [named, Registry.firstNamed?, List.filterMap_cons, List.find?_cons]
      cases hname : (r.node id).memberName? with
      | none =>
          rw [Option.map_none, decide_eq_false (by simp)]
          exact ih
      | some other =>
          simp only [Option.map_some, OrderedMap.lookup_cons_ite, Option.some.injEq]
          by_cases heq : name = other
          · simp [heq]
          · rw [if_neg heq, decide_eq_false (Ne.symm heq)]
            exact ih

theorem lookup_reverse_named (name : String) (ids : List NodeId) :
    (named r ids).reverse.lookup name = r.lastNamed? name ids := by
  rw [Registry.lastNamed?, ← lookup_named, named, named, List.filterMap_reverse]

theorem offerFields_eq (chosen : OrderedMap String NodeId) (ids : List NodeId) :
    offerFields r chosen ids
      = (named r ids).foldl (fun m e => m.insertNew e.1 e.2) chosen := by
  rw [named, List.foldl_filterMap, offerFields]
  congr 1
  funext m id
  cases (r.node id).memberName? <;> rfl

theorem overrideFields_eq (chosen : OrderedMap String NodeId) (ids : List NodeId) :
    overrideFields r chosen ids = chosen.insertAll (named r ids) := by
  rw [named, OrderedMap.insertAll, List.foldl_filterMap, overrideFields]
  congr 1
  funext m id
  cases (r.node id).memberName? <;> rfl

/-- What the interfaces offer, in one go. -/
theorem foldl_offerFields (interfaces : List NodeId) (chosen : OrderedMap String NodeId) :
    interfaces.foldl (fun m id => offerFields r m (interfaceFields r id)) chosen
      = offerFields r chosen (interfaces.flatMap (interfaceFields r)) := by
  simp only [offerFields, List.foldl_flatMap]

/-- What the objects override, in one go. -/
theorem foldl_overrideFields (chain : List NodeId) (chosen : OrderedMap String NodeId) :
    chain.foldl (fun m id => overrideFields r m (objectFields r id)) chosen
      = overrideFields r chosen (chain.flatMap (objectFields r)) := by
  simp only [overrideFields, List.foldl_flatMap]

theorem chosenFields_eq (chain interfaces : List NodeId) :
    chosenFields r chain interfaces =
      OrderedMap.insertAll
        ((named r (interfaces.flatMap (interfaceFields r))).foldl
          (fun m e => m.insertNew e.1 e.2) ∅)
        (named r (chain.reverse.flatMap (objectFields r))) := by
  rw [chosenFields, foldl_offerFields, foldl_overrideFields, offerFields_eq,
    overrideFields_eq]

theorem keys_chosenFields (chain interfaces : List NodeId) :
    (chosenFields r chain interfaces).keys = r.flattenedNames chain interfaces := by
  rw [chosenFields_eq, OrderedMap.insertAll]
  have hempty : (∅ : OrderedMap String NodeId).keys = [].eraseDups := rfl
  have hoffered := OrderedMap.keys_foldl (fun m e => m.keys_insertNew e.1 e.2)
    (named r (interfaces.flatMap (interfaceFields r))) hempty
  rw [OrderedMap.keys_foldl (fun m e => m.keys_insert e.1 e.2) _ hoffered, List.nil_append,
    map_fst_named, map_fst_named, Registry.flattenedNames, Registry.names, Registry.names,
    Registry.names, List.filterMap_append]

theorem find?_chosenFields (chain interfaces : List NodeId) (name : String) :
    (chosenFields r chain interfaces).find? name = r.flattened? chain interfaces name := by
  have hnearest : r.lastNamed? name (chain.reverse.flatMap (objectFields r))
      = chain.findSome? fun o => r.lastNamed? name (objectFields r o) := by
    rw [Registry.lastNamed?, Registry.firstNamed?, List.reverse_flatMap, List.reverse_reverse,
      List.find?_flatMap]
    rfl
  rw [chosenFields_eq, OrderedMap.find?_insertAll, OrderedMap.find?_foldl_insertNew,
    OrderedMap.find?_empty, Option.none_or, lookup_named, lookup_reverse_named, hnearest]
  rfl

/-- The declarations that count are stored under their names. -/
theorem memberName?_of_mem_chosenFields {chain interfaces : List NodeId} {name : String}
    {i : NodeId} (h : (name, i) ∈ (chosenFields r chain interfaces).entries) :
    (r.node i).memberName? = some name := by
  rw [← OrderedMap.find?_eq_some_iff, find?_chosenFields, Registry.flattened?,
    Option.or_eq_some_iff] at h
  rcases h with hown | ⟨-, hoffered⟩
  · obtain ⟨o, -, hlast⟩ := List.exists_of_findSome?_eq_some hown
    exact (Registry.lastNamed?_eq_some hlast).2
  · exact (Registry.firstNamed?_eq_some hoffered).2

theorem named_chosenFields (chain interfaces : List NodeId) :
    named r (chosenFields r chain interfaces).values
      = (chosenFields r chain interfaces).entries := by
  rw [named, OrderedMap.values, List.filterMap_map]
  have hself : ∀ e ∈ (chosenFields r chain interfaces).entries,
      ((fun id => (r.node id).memberName?.map (·, id)) ∘ Prod.snd) e = some e := by
    intro e he
    rw [Function.comp_apply, memberName?_of_mem_chosenFields he]
    rfl
  rw [List.filterMap_congr hself]
  exact List.filterMap_some

end Compile

/-! ## Compiled fields -/

namespace Meaning

theorem memberName?_of_field {owner : String} {i : NodeId} {f : CompiledField}
    (h : field r owner i = .ok f) : (r.node i).memberName? = some f.name := by
  obtain ⟨linked, hlinked, h⟩ := bind_eq_ok.mp h
  obtain ⟨c, -, h⟩ := bind_eq_ok.mp h
  obtain ⟨⟨args, mapping⟩, -, h⟩ := bind_eq_ok.mp h
  cases h
  obtain ⟨n, _, hn, hdecl, -⟩ := linkField_eq_ok hlinked
  rw [hn, ← hdecl]
  rfl

/-- Compiled fields stand in the order in which their names are declared
first. -/
theorem keys_fields {owner : String} {ids : List NodeId} :
    ∀ {before after : OrderedMap String CompiledField} {ks : List String},
      fields r owner ids before = .ok after → before.keys = ks.eraseDups →
      after.keys = (ks ++ r.names ids).eraseDups := by
  induction ids with
  | nil =>
      intro before after ks h hks
      cases h
      rw [Registry.names, List.filterMap_nil, List.append_nil]
      exact hks
  | cons id rest ih =>
      intro before after ks h hks
      obtain ⟨f, hf, h⟩ := bind_eq_ok.mp h
      have hstep : (before.insert f.name f).keys = (ks ++ [f.name]).eraseDups := by
        simp only [OrderedMap.keys_insert, hks, OrderedMap.eraseDups_concat,
          List.mem_eraseDups]
      have hnames : r.names (id :: rest) = f.name :: r.names rest :=
        List.filterMap_cons_some (memberName?_of_field hf)
      rw [ih h hstep, List.append_assoc, hnames]
      rfl

/-- The last declaration of a name is the one that is compiled for it. -/
theorem find?_fields {owner : String} {ids : List NodeId} {name : String}
    {f : CompiledField} :
    ∀ {before after : OrderedMap String CompiledField},
      fields r owner ids before = .ok after →
      (after.find? name = some f ↔
        (∃ i, r.lastNamed? name ids = some i ∧ field r owner i = .ok f) ∨
          r.lastNamed? name ids = none ∧ before.find? name = some f) := by
  induction ids with
  | nil =>
      intro before after h
      cases h
      simp [Registry.lastNamed?, Registry.firstNamed?]
  | cons id rest ih =>
      intro before after h
      obtain ⟨g, hg, h⟩ := bind_eq_ok.mp h
      rw [ih h, Registry.lastNamed?_cons, memberName?_of_field hg, OrderedMap.find?_insert]
      cases r.lastNamed? name rest with
      | some j => simp
      | none =>
          by_cases heq : name = g.name
          · simp [heq, hg]
          · simp [heq, Ne.symm heq]

end Meaning

/-- What a compiled field takes over from the declaration `i`: the texts, the
resolver, the type it is declared with and its arguments. -/
structure CompiledField.IsOf (r : Registry) (i : NodeId) (f : CompiledField) : Prop where
  texts : ∃ n, r.node i = .field n ∧ f.name = n.decl.name ∧
    f.description = n.decl.description ∧ f.deprecation = n.decl.deprecation ∧
    f.resolver.explicit? = n.decl.resolver?
  type : ∃ n e l c, r.node i = .field n ∧ n.decl.type? = some e ∧ r.link e = .ok l ∧
    Meaning.link r l true = .ok c ∧ f.typeRef = c.typeRef ∧ f.resolver.hook? = c.hook? ∧
    f.resolver.dispatch? = c.dispatch?
  args : ∃ owner linked, r.linkField i = .ok linked ∧
    Meaning.arguments r owner linked = .ok (f.args, f.resolver.arguments)

theorem Meaning.isOf_of_field {owner : String} {i : NodeId} {f : CompiledField}
    (h : field r owner i = .ok f) : f.IsOf r i := by
  obtain ⟨linked, hlinked, h⟩ := bind_eq_ok.mp h
  obtain ⟨c, hc, h⟩ := bind_eq_ok.mp h
  obtain ⟨⟨args, mapping⟩, hargs, h⟩ := bind_eq_ok.mp h
  cases h
  obtain ⟨n, e, hn, hdecl, htype, hl, -⟩ := linkField_eq_ok hlinked
  refine ⟨⟨n, hn, ?_⟩, ⟨n, e, linked.type, c, hn, htype, hl, ?_, rfl, rfl, rfl⟩,
    ⟨owner, linked, hlinked, hargs⟩⟩
  · rw [hdecl]
    exact ⟨rfl, rfl, rfl, rfl⟩
  · exact (output_eq_ok.mp hc).1

/-! ## Objects -/

theorem Request.meaning_of_ask_object {id : NodeId} {c : CompiledObject}
    {s s' : CompileState} (hs : CompileState.Reaches r {} s)
    (h : (Request.object id).ask r s = .ok (.type (.object c)) s') :
    Meaning.object r id = .ok c := by
  obtain ⟨c', hrun, heq⟩ := Compile.map_eq_ok.mp h
  cases heq
  exact (Compile.object_ok (closed_true r) trivial hs.settled hrun).2.1

theorem Request.meaning_of_ask_interface {id : NodeId} {c : CompiledInterface}
    {s s' : CompileState} (hs : CompileState.Reaches r {} s)
    (h : (Request.interface id).ask r s = .ok (.type (.interface c)) s') :
    Meaning.interface r id = .ok c := by
  obtain ⟨c', hrun, heq⟩ := Compile.map_eq_ok.mp h
  cases heq
  exact (Compile.interface_ok (closed_true r) trivial hs.settled hrun).2.1

/-- A compiled object lists the interfaces of its chain and has the fields that
count along it, in their places. -/
structure CompiledObject.Flattens (r : Registry) (chain : List NodeId)
    (c : CompiledObject) : Prop where
  interfaces : c.interfaces = (r.interfaceOrder chain).map fun i => (r.node i).displayName
  names : ∀ name, name ∈ c.fields.keys ↔
    (∃ o ∈ chain, name ∈ r.names (objectFields r o)) ∨
      ∃ i ∈ r.interfaceOrder chain, name ∈ r.names (interfaceFields r i)
  order : c.fields.keys = r.flattenedNames chain (r.interfaceOrder chain)
  chosen : ∀ name ∈ c.fields.keys, ∃ i f,
    r.flattened? chain (r.interfaceOrder chain) name = some i ∧
      c.fields.find? name = some f ∧ f.IsOf r i

/-- The field of a name is compiled from the declaration that counts for it. -/
theorem Meaning.find?_object {id : NodeId} {c : CompiledObject} {chain : List NodeId}
    (h : object r id = .ok c) (hchain : r.chain id = .ok chain) {name : String}
    {f : CompiledField} : c.fields.find? name = some f ↔
      ∃ i, r.flattened? chain (r.interfaceOrder chain) name = some i ∧
        field r c.name i = .ok f := by
  obtain ⟨n, chain', compiled, -, hchain', hfields, rfl⟩ := object_eq_ok h
  obtain rfl : chain = chain' := Except.ok.inj (hchain.symm.trans hchain')
  rw [objectFieldIds, chainInterfaces_eq] at hfields
  have hlast : r.lastNamed? name (chosenFields r chain (r.interfaceOrder chain)).values
      = r.flattened? chain (r.interfaceOrder chain) name := by
    rw [← lookup_reverse_named, named_chosenFields,
      OrderedMap.lookup_reverse (OrderedMap.nodup_keys _)]
    exact find?_chosenFields chain (r.interfaceOrder chain) name
  rw [find?_fields hfields, hlast]
  simp [OrderedMap.find?_empty]

theorem Meaning.flattens_of_object {id : NodeId} {c : CompiledObject} {chain : List NodeId}
    (h : object r id = .ok c) (hchain : r.chain id = .ok chain) : c.Flattens r chain := by
  obtain ⟨n, chain', compiled, -, hchain', hfields, hc⟩ := object_eq_ok h
  obtain rfl : chain = chain' := Except.ok.inj (hchain.symm.trans hchain')
  rw [objectFieldIds, chainInterfaces_eq] at hfields
  have horder : c.fields.keys = r.flattenedNames chain (r.interfaceOrder chain) := by
    have hkeys := keys_fields hfields
      (show (∅ : OrderedMap String CompiledField).keys = [].eraseDups from rfl)
    rw [List.nil_append, ← map_fst_named, named_chosenFields,
      OrderedMap.eraseDups_of_nodup (OrderedMap.nodup_keys _)] at hkeys
    rw [hc, hkeys]
    exact keys_chosenFields chain (r.interfaceOrder chain)
  refine ⟨?_, fun name => ?_, horder, fun name hname => ?_⟩
  · rw [hc, chainInterfaces_eq]
  · rw [horder, Registry.mem_flattenedNames]
  · obtain ⟨f, hf⟩ := OrderedMap.contains_iff.mp (OrderedMap.mem_keys_iff.mp hname)
    obtain ⟨i, hi, hfield⟩ := (find?_object h hchain).mp hf
    exact ⟨i, f, hi, hf, isOf_of_field hfield⟩

/-- An object that a compiler answers, whatever it was asked before, is flattened
along its path of extends links. -/
theorem Request.flattens_of_ask {id : NodeId} {c : CompiledObject} {s s' : CompileState}
    (hs : CompileState.Reaches r {} s)
    (h : (Request.object id).ask r s = .ok (.type (.object c)) s') :
    ∃ chain, r.ChainOf id chain ∧ c.Flattens r chain := by
  have hmeaning := Request.meaning_of_ask_object hs h
  obtain ⟨n, chain, _, -, hchain, -⟩ := Meaning.object_eq_ok hmeaning
  exact ⟨chain, Registry.chainOf_of_chain hchain, Meaning.flattens_of_object hmeaning hchain⟩

/-! ### A catalogue

A book is an item and labelled, an item is priced and labelled. Both interfaces
have codes, and labels are declared twice. -/

namespace Catalogue

def labelled : HostType := ⟨"Labelled"⟩

def priced : HostType := ⟨"Priced"⟩

def item : HostType := ⟨"Item"⟩

def book : HostType := ⟨"Book"⟩

/-- The types are nodes 3, 6, 10 and 15. -/
def registry : Registry := .ofDeclarations [
  .field labelled { name := "label", type? := some .string },
  .field labelled { name := "label", type? := some .int },
  .field labelled { name := "code", type? := some .id },
  .interface labelled {},
  .field priced { name := "price", type? := some .float },
  .field priced { name := "code", type? := some .int },
  .interface priced {},
  .implement item priced,
  .implement item labelled,
  .field item { name := "title", type? := some .string },
  .object item {},
  .implement book labelled,
  .field book { name := "title", type? := some (.nullable .string) },
  .field book { name := "price", type? := some .int },
  .field book { name := "price", type? := some .string },
  .object book { extends? := some ⟨book, item⟩ }]

theorem book_flattens : ∃ c t chain,
    (Request.object 15).ask registry {} = .ok (.type (.object c)) t ∧
      registry.ChainOf 15 chain ∧ c.Flattens registry chain := by
  obtain ⟨_, hasked⟩ := Request.ask_of_isAnswered
    (show (Request.object 15).isAnswered registry {} = true by decide +kernel)
  obtain ⟨c, -, rfl⟩ := Compile.map_eq_ok.mp hasked
  obtain ⟨chain, hchain, hflattens⟩ := Request.flattens_of_ask .refl hasked
  exact ⟨c, _, chain, hasked, hchain, hflattens⟩

/-- The place of a price is the one the interface gives it, the declaration that
counts is the last one of the book. -/
example : registry.flattenedNames [15, 10] [3, 6] = ["label", "code", "price", "title"] ∧
    registry.flattened? [15, 10] [3, 6] "price" = some 14 := by decide

end Catalogue

end SchemaGraph
