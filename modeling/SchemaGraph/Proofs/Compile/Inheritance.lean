import SchemaGraph.Proofs.Compile.Flattening

/-!
# Fields taken over from an interface

A field that an object declares nowhere on its chain comes from the first of its
interfaces that has it. The object and the interface are compiled from the same
declarations then, but not by the same rule: of several declarations of one name
the object takes the first, since interfaces give way to what is there already,
and the interface the last, since a later field replaces an earlier one. Where
the two are one declaration the fields are equal in everything. Where they are
not, object and interface agree just as far as the two declarations do.
-/

set_option autoImplicit false

namespace SchemaGraph

open Compile

variable {r : Registry}

/-! ## The owner does not matter -/

namespace Meaning

theorem arguments_unique {linked : LinkedField} {o o' : String}
    {a a' : OrderedMap String CompiledInput × ArgumentMapping}
    (h : arguments r o linked = .ok a) (h' : arguments r o' linked = .ok a') : a = a' := by
  unfold arguments at h h'
  cases harg : linked.arg? with
  | some arg =>
      cases hargs : linked.args? with
      | some bundle =>
          simp only [harg, hargs] at h
          cases h
      | none =>
          simp only [harg, hargs] at h h'
          obtain ⟨c, hc, h⟩ := bind_eq_ok.mp h
          obtain ⟨c', hc', h'⟩ := bind_eq_ok.mp h'
          obtain rfl : c = c' :=
            Except.ok.inj ((input_eq_ok.mp hc).1.symm.trans (input_eq_ok.mp hc').1)
          exact Except.ok.inj (h.symm.trans h')
  | none =>
      cases hargs : linked.args? with
      | some bundle =>
          simp only [harg, hargs] at h h'
          exact Except.ok.inj (h.symm.trans h')
      | none =>
          simp only [harg, hargs] at h h'
          exact Except.ok.inj (h.symm.trans h')

/-- The owner of a field is named in complaints and nowhere else. -/
theorem field_unique {i : NodeId} {o o' : String} {f f' : CompiledField}
    (h : field r o i = .ok f) (h' : field r o' i = .ok f') : f = f' := by
  obtain ⟨linked, hlinked, h⟩ := bind_eq_ok.mp h
  obtain ⟨linked', hlinked', h'⟩ := bind_eq_ok.mp h'
  obtain rfl : linked = linked' := Except.ok.inj (hlinked.symm.trans hlinked')
  obtain ⟨c, hc, h⟩ := bind_eq_ok.mp h
  obtain ⟨c', hc', h'⟩ := bind_eq_ok.mp h'
  obtain rfl : c = c' :=
    Except.ok.inj ((output_eq_ok.mp hc).1.symm.trans (output_eq_ok.mp hc').1)
  obtain ⟨a, ha, h⟩ := bind_eq_ok.mp h
  obtain ⟨a', ha', h'⟩ := bind_eq_ok.mp h'
  obtain rfl : a = a' := arguments_unique ha ha'
  exact Except.ok.inj (h.symm.trans h')

end Meaning

/-! ## What is taken over -/

/-- Two fields that a query cannot tell apart. -/
def CompiledField.Honours (f g : CompiledField) : Prop :=
  f.typeRef = g.typeRef ∧ f.args = g.args ∧ f.description = g.description ∧
    f.deprecation = g.deprecation

/-- Two declarations that compile to such fields. -/
def Registry.DeclaresAlike (r : Registry) (i j : NodeId) : Prop :=
  ∀ owner owner' f g, Meaning.field r owner i = .ok f → Meaning.field r owner' j = .ok g →
    f.Honours g

/-- A name that the chain and the earlier interfaces leave open is declared by the
next interface that has it. -/
theorem Registry.flattened?_of_inherited {chain earlier : List NodeId} (later : List NodeId)
    {i : NodeId} {name : String} (hown : ∀ o ∈ chain, name ∉ r.names (objectFields r o))
    (hearlier : ∀ j ∈ earlier, name ∉ r.names (interfaceFields r j))
    (hname : name ∈ r.names (interfaceFields r i)) :
    r.flattened? chain (earlier ++ i :: later) name
      = r.firstNamed? name (interfaceFields r i) := by
  have hchain : chain.findSome? (fun o => r.lastNamed? name (objectFields r o)) = none :=
    List.findSome?_eq_none_iff.mpr fun o ho => lastNamed?_eq_none.mpr (hown o ho)
  have hskip : earlier.findSome? (fun j => r.firstNamed? name (interfaceFields r j)) = none :=
    List.findSome?_eq_none_iff.mpr fun j hj => firstNamed?_eq_none.mpr (hearlier j hj)
  have hfirst : r.firstNamed? name ((earlier ++ i :: later).flatMap (interfaceFields r))
      = (earlier ++ i :: later).findSome? fun j =>
          r.firstNamed? name (interfaceFields r j) := List.find?_flatMap
  obtain ⟨first, hsome⟩ := Option.ne_none_iff_exists'.mp fun hnone =>
    firstNamed?_eq_none.mp hnone hname
  rw [flattened?, hchain, Option.none_or, hfirst, List.findSome?_append, hskip,
    Option.none_or, List.findSome?_cons, hsome]

namespace Meaning

theorem names_interfaceFields {i : NodeId} {d : CompiledInterface}
    (h : interface r i = .ok d) {name : String} :
    name ∈ d.fields.keys ↔ name ∈ r.names (interfaceFields r i) := by
  obtain ⟨n, compiled, _, hn, hfields, -, rfl⟩ := interface_eq_ok h
  have hkeys := keys_fields hfields
    (show (∅ : OrderedMap String CompiledField).keys = [].eraseDups from rfl)
  rw [hkeys, List.nil_append, List.mem_eraseDups, interfaceFields, hn]
  rfl

/-- Of several declarations of a name an interface compiles the last. -/
theorem find?_interface {i : NodeId} {d : CompiledInterface} (h : interface r i = .ok d)
    {name : String} {g : CompiledField} : d.fields.find? name = some g ↔
      ∃ last, r.lastNamed? name (interfaceFields r i) = some last ∧
        field r d.name last = .ok g := by
  obtain ⟨n, compiled, _, hn, hfields, -, rfl⟩ := interface_eq_ok h
  have hown : interfaceFields r i = n.fields := by
    rw [interfaceFields, hn]
    rfl
  rw [find?_fields hfields, hown]
  simp [OrderedMap.find?_empty]

end Meaning

/-- A field that an object takes over from an interface is compiled from the first
declaration of its name there, the field of the interface from the last. They are
equal if these are one, and agree exactly if these declare alike. -/
theorem Request.inherited_field {o i : NodeId} {c : CompiledObject} {d : CompiledInterface}
    {s s' t t' : CompileState} {chain earlier later : List NodeId} {name : String}
    (hs : CompileState.Reaches r {} s)
    (hobject : (Request.object o).ask r s = .ok (.type (.object c)) s')
    (ht : CompileState.Reaches r {} t)
    (hinterface : (Request.interface i).ask r t = .ok (.type (.interface d)) t')
    (hchain : r.chain o = .ok chain) (horder : r.interfaceOrder chain = earlier ++ i :: later)
    (hname : name ∈ d.fields.keys)
    (hown : ∀ a ∈ chain, name ∉ r.names (objectFields r a))
    (hearlier : ∀ j ∈ earlier, name ∉ r.names (interfaceFields r j)) :
    ∃ first last f g,
      r.firstNamed? name (interfaceFields r i) = some first ∧
        r.lastNamed? name (interfaceFields r i) = some last ∧
      c.fields.find? name = some f ∧ f.IsOf r first ∧
      d.fields.find? name = some g ∧ g.IsOf r last ∧
      (first = last → f = g) ∧ (f.Honours g ↔ r.DeclaresAlike first last) := by
  have hc := meaning_of_ask_object hs hobject
  have hd := meaning_of_ask_interface ht hinterface
  have hdeclared := (Meaning.names_interfaceFields hd).mp hname
  have hflattened := Registry.flattened?_of_inherited later hown hearlier hdeclared
  -- The object has the name because the interface offers it.
  have hkey : name ∈ c.fields.keys := by
    refine ((Meaning.flattens_of_object hc hchain).names name).mpr (Or.inr ⟨i, ?_, hdeclared⟩)
    rw [horder]
    simp
  obtain ⟨f, hf⟩ := OrderedMap.contains_iff.mp (OrderedMap.mem_keys_iff.mp hkey)
  obtain ⟨g, hg⟩ := OrderedMap.contains_iff.mp (OrderedMap.mem_keys_iff.mp hname)
  obtain ⟨first, hfirst, hfieldf⟩ := (Meaning.find?_object hc hchain).mp hf
  obtain ⟨last, hlast, hfieldg⟩ := (Meaning.find?_interface hd).mp hg
  rw [horder, hflattened] at hfirst
  refine ⟨first, last, f, g, hfirst, hlast, hf, Meaning.isOf_of_field hfieldf, hg,
    Meaning.isOf_of_field hfieldg, ?_, ?_, ?_⟩
  · rintro rfl
    exact Meaning.field_unique hfieldf hfieldg
  · intro hhonours owner owner' f' g' hf' hg'
    rw [Meaning.field_unique hf' hfieldf, Meaning.field_unique hg' hfieldg]
    exact hhonours
  · exact fun halike => halike _ _ f g hfieldf hfieldg

/-! ### Two labels

An item takes the label from the interface, which declares it twice. -/

namespace Catalogue

/-- The type of the label in an answer. -/
def labelType? (q : Request) : Option TypeRef :=
  match q.ask registry {} with
  | .ok (.type (.object c)) _ => (c.fields.find? "label").map (·.typeRef)
  | .ok (.type (.interface c)) _ => (c.fields.find? "label").map (·.typeRef)
  | _ => none

/-- The label is a text in what is answered about the item, and a number in what is answered
about the labelled. -/
theorem label_types :
    ((Request.object 10).isAnswered registry {} = true ∧
      labelType? (.object 10) = some (.nonNull (.named "String"))) ∧
    (Request.interface 3).isAnswered registry {} = true ∧
      labelType? (.interface 3) = some (.nonNull (.named "Int")) := by
  decide +kernel

theorem item_answered : ∃ c s,
    (Request.object 10).ask registry {} = .ok (.type (.object c)) s := by
  obtain ⟨_, hasked⟩ := Request.ask_of_isAnswered label_types.1.1
  obtain ⟨c, -, rfl⟩ := Compile.map_eq_ok.mp hasked
  exact ⟨c, _, hasked⟩

theorem labelled_answered : ∃ d s,
    (Request.interface 3).ask registry {} = .ok (.type (.interface d)) s := by
  obtain ⟨_, hasked⟩ := Request.ask_of_isAnswered label_types.2.1
  obtain ⟨d, -, rfl⟩ := Compile.map_eq_ok.mp hasked
  exact ⟨d, _, hasked⟩

theorem item_chain : registry.chain 10 = .ok [10] := rfl

theorem item_interfaces : registry.interfaceOrder [10] = [6, 3] := rfl

/-- Neither the item nor the priced, which come before the labelled, have a label. -/
theorem label_open : (∀ a ∈ [10], "label" ∉ registry.names (objectFields registry a)) ∧
    ∀ j ∈ [6], "label" ∉ registry.names (interfaceFields registry j) := by decide

theorem label_inherited : ∃ c d s t f g,
    (Request.object 10).ask registry {} = .ok (.type (.object c)) s ∧
      (Request.interface 3).ask registry {} = .ok (.type (.interface d)) t ∧
      c.fields.find? "label" = some f ∧ f.IsOf registry 0 ∧
      d.fields.find? "label" = some g ∧ g.IsOf registry 1 ∧
      (f.Honours g ↔ registry.DeclaresAlike 0 1) := by
  obtain ⟨c, s, hobject⟩ := item_answered
  obtain ⟨d, t, hinterface⟩ := labelled_answered
  have hname : "label" ∈ d.fields.keys :=
    (Meaning.names_interfaceFields (Request.meaning_of_ask_interface .refl hinterface)).mpr
      (by decide)
  have horder : registry.interfaceOrder [10] = [6] ++ 3 :: [] := item_interfaces
  obtain ⟨first, last, f, g, hfirst, hlast, hf, hfof, hg, hgof, -, halike⟩ :=
    Request.inherited_field .refl hobject .refl hinterface item_chain horder hname
      label_open.1 label_open.2
  have hends : registry.firstNamed? "label" (interfaceFields registry 3) = some 0 ∧
      registry.lastNamed? "label" (interfaceFields registry 3) = some 1 := by decide
  obtain rfl : 0 = first := Option.some.inj (hends.1.symm.trans hfirst)
  obtain rfl : 1 = last := Option.some.inj (hends.2.symm.trans hlast)
  exact ⟨c, d, s, t, f, g, hobject, hinterface, hf, hfof, hg, hgof, halike⟩

/-- The label of an item is a text and the label of the interface a number, though
no object of the chain and no earlier interface declares a label. -/
theorem label_differs : ∃ c d s t f g,
    (Request.object 10).ask registry {} = .ok (.type (.object c)) s ∧
      (Request.interface 3).ask registry {} = .ok (.type (.interface d)) t ∧
      d.name ∈ c.interfaces ∧
      registry.chain 10 = .ok [10] ∧ registry.interfaceOrder [10] = [6, 3] ∧
      (∀ a ∈ [10], "label" ∉ registry.names (objectFields registry a)) ∧
      (∀ j ∈ [6], "label" ∉ registry.names (interfaceFields registry j)) ∧
      c.fields.find? "label" = some f ∧ d.fields.find? "label" = some g ∧
      f.typeRef ≠ g.typeRef := by
  obtain ⟨⟨-, hobjectType⟩, -, hinterfaceType⟩ := label_types
  obtain ⟨c, s, hobject⟩ := item_answered
  obtain ⟨d, t, hinterface⟩ := labelled_answered
  simp only [labelType?, hobject] at hobjectType
  simp only [labelType?, hinterface] at hinterfaceType
  obtain ⟨f, hf, hftype⟩ := Option.map_eq_some_iff.mp hobjectType
  obtain ⟨g, hg, hgtype⟩ := Option.map_eq_some_iff.mp hinterfaceType
  have hname : d.name = (registry.node 3).displayName :=
    Meaning.type_name (Meaning.type_of_interface
      (Request.meaning_of_ask_interface .refl hinterface))
  have hinterfaces := (Meaning.flattens_of_object
    (Request.meaning_of_ask_object .refl hobject) item_chain).interfaces
  refine ⟨c, d, s, t, f, g, hobject, hinterface, ?_, item_chain, item_interfaces,
    label_open.1, label_open.2, hf, hg, ?_⟩
  · rw [hinterfaces, item_interfaces, hname]
    simp
  · rw [hftype, hgtype]
    decide

end Catalogue

end SchemaGraph
