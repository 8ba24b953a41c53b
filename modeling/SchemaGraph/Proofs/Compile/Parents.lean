import SchemaGraph.Proofs.Compile.Flattening
import SchemaGraph.Proofs.Declared.Chains

/-!
# Inherited resolvers and their parents

A field that an object takes over from an ancestor keeps the resolver it was declared
with, and a resolver that is a method expects a parent of the type that declared it. What
it is called with is an instance of the object, or of an object that extends it, since a
union presents such instances under the name of a member. Between the type of the
instance and the type of the method lie the links of the chain, and the method is handed
the value as it is seen along them.
-/

set_option autoImplicit false

namespace SchemaGraph

variable {r : Registry}

/-! ## Parents along a chain -/

/-- The parent of a call is an instance of the first object of a chain: it can be had as a
value of every type on the chain, as it is seen along the links below, and of no other. -/
structure FieldCall.Sees (r : Registry) (chain : List NodeId) (i : Instance)
    (call : FieldCall) : Prop where
  answered : ∀ t, (∃ v, call.parentAs t = .ok v) ↔ ∃ a ∈ chain, (r.node a).type = t
  found : ∀ {below a above}, chain = below ++ a :: above →
    ∃ v, i.value.along (r.links below) = some v ∧ call.parentAs (r.node a).type = .ok v
  missed : ∀ {t}, (∀ a ∈ chain, (r.node a).type ≠ t) →
    call.parentAs t = .error (.unexpectedParent call.field t.shortName)

namespace Registry.ChainOf

variable {o a : NodeId} {chain above below : List NodeId} {v : HostValue}

theorem view_along (hr : r.WellFormed) (hown : r.OwnLinks)
    (h : r.ChainOf o (below ++ a :: above)) (hv : v.type = (r.node o).type) :
    ∃ w, v.along (r.links below) = some w ∧
      r.lineage.view (r.node a).type v = .found w := by
  obtain ⟨w, hw, hfollow⟩ := h.follow_along hr hown hv
  refine ⟨w, hw, ?_⟩
  rw [← Lineage.follow_eq_view (hv ▸ h.not_circles hr _) below.length]
  exact hfollow _ (by omega)

theorem view_beyond (hr : r.WellFormed) (hown : r.OwnLinks) (h : r.ChainOf o chain)
    (hv : v.type = (r.node o).type) {t : HostType} (ht : ∀ a ∈ chain, (r.node a).type ≠ t) :
    r.lineage.view t v = .absent := by
  rw [← Lineage.follow_eq_view (hv ▸ h.not_circles hr _) chain.length]
  exact h.follow_beyond hr hown hv ht _ (by omega)

theorem sees (hr : r.WellFormed) (hown : r.OwnLinks) (h : r.ChainOf o chain) {i : Instance}
    (hi : i.type = (r.node o).type) {call : FieldCall} (hparent : call.parent = .instance i)
    (hlineage : call.lineage = r.lineage) : call.Sees r chain i := by
  have hmissed : ∀ {t}, (∀ a ∈ chain, (r.node a).type ≠ t) →
      call.parentAs t = .error (.unexpectedParent call.field t.shortName) := by
    intro t ht
    refine FieldCall.parentAs_of_absent hparent ?_
    rw [hlineage]
    exact h.view_beyond hr hown hi ht
  have hfound : ∀ {below a above}, chain = below ++ a :: above →
      ∃ v, i.value.along (r.links below) = some v ∧
        call.parentAs (r.node a).type = .ok v := by
    rintro below a above rfl
    obtain ⟨v, hv, hview⟩ := h.view_along hr hown hi
    refine ⟨v, hv, FieldCall.parentAs_of_found hparent ?_⟩
    rw [hlineage]
    exact hview
  refine ⟨fun t => ?_, hfound, hmissed⟩
  constructor
  · rintro ⟨v, hv⟩
    by_contra hnone
    rw [hmissed fun a ha htype => hnone ⟨a, ha, htype⟩] at hv
    cases hv
  · rintro ⟨a, ha, rfl⟩
    obtain ⟨below, above, hsplit⟩ := List.append_of_mem ha
    obtain ⟨v, -, hv⟩ := hfound hsplit
    exact ⟨v, hv⟩

end Registry.ChainOf

/-! ## Methods -/

/-- A method that finds its parent is a resolver that has it from the start. -/
theorem FieldResolver.resolve_method {f : FieldResolver} {t : HostType}
    {body : HostValue → Resolver} {i : Instance} {v : HostValue}
    (hf : f.explicit? = some (Resolver.method t body))
    (hv : f.lineage.view t i.value = .found v) (table : ShapeTable) (raw : Value)
    (context? : Option HostValue) : f.resolve table (.instance i) raw context? =
      { f with explicit? := some (body v) }.resolve table (.instance i) raw context? := by
  have hcall : ∀ args, Resolver.method t body
      ⟨f.field, .instance i, args, context?, f.lineage⟩
        = body v ⟨f.field, .instance i, args, context?, f.lineage⟩ := by
    intro args
    rw [Resolver.method, FieldCall.parentAs_of_found rfl hv]
  simp only [resolve, hf, hcall]

/-- Every field carries the whole lineage. -/
theorem Meaning.lineage_of_field {owner : String} {i : NodeId} {f : CompiledField}
    (h : field r owner i = .ok f) : f.resolver.lineage = r.lineage := by
  obtain ⟨linked, -, h⟩ := bind_eq_ok.mp h
  obtain ⟨c, -, h⟩ := bind_eq_ok.mp h
  obtain ⟨a, -, h⟩ := bind_eq_ok.mp h
  cases h
  rfl

theorem Meaning.lineage_of_object {id : NodeId} {c : CompiledObject} (h : object r id = .ok c)
    {name : String} {f : CompiledField} (hf : c.fields.find? name = some f) :
    f.resolver.lineage = r.lineage := by
  obtain ⟨_, chain, _, -, hchain, -⟩ := object_eq_ok h
  obtain ⟨i, -, hfield⟩ := (find?_object h hchain).mp hf
  exact lineage_of_field hfield

/-- Where every link is one from the declaring type, a call sees exactly what is on the
chain of its parent. So a method of an ancestor that a compiled object takes over is handed
its own part of every instance of the object, and of every object that extends it. -/
theorem Registry.Reached.methods_see_their_part (hr : r.Reached) (hown : r.OwnLinks) :
    (∀ {o chain} {i : Instance} {call : FieldCall}, r.chain o = .ok chain →
      i.type = (r.node o).type → call.parent = .instance i → call.lineage = r.lineage →
      call.Sees r chain i) ∧
    ∀ {s s' o c name f a body}, CompileState.Reaches r {} s →
      (Request.object o).ask r s = .ok (.type (.object c)) s' →
      c.fields.find? name = some f → r.Descends o a →
      f.resolver.explicit? = some (Resolver.method (r.node a).type body) →
      ∀ {d} {i : Instance}, r.Descends d o → i.type = (r.node d).type →
        ∃ chain, r.chain d = .ok chain ∧ a ∈ chain ∧
          ∀ {below above}, chain = below ++ a :: above →
            ∃ part, i.value.along (r.links below) = some part ∧
              ∀ table raw context?, f.resolver.resolve table (.instance i) raw context? =
                { f.resolver with explicit? := some (body part) }.resolve table
                  (.instance i) raw context? := by
  have hwf := hr.wellFormed
  refine ⟨fun hchain hi hparent hlineage =>
    (chainOf_of_chain hchain).sees hwf hown hi hparent hlineage, ?_⟩
  intro s s' o c name f a body hs hasked hf ha hmethod d i hd hi
  have hc := Request.meaning_of_ask_object hs hasked
  obtain ⟨_, chain, _, -, hchain, -⟩ := Meaning.object_eq_ok hc
  obtain ⟨below, hbelow⟩ := (chainOf_of_chain hchain).of_descends hd
  refine ⟨below ++ chain, hbelow.chain_eq_ok, hbelow.mem_iff.mpr (hd.trans ha), ?_⟩
  intro below' above hsplit
  rw [hsplit] at hbelow
  obtain ⟨part, hpart, hview⟩ := hbelow.view_along hwf hown hi
  rw [← Meaning.lineage_of_object hc hf] at hview
  exact ⟨part, hpart, FieldResolver.resolve_method hmethod hview⟩

/-! ### Staff

An owner is an admin and an admin is a user; the user has a tag. -/

namespace Staff

def user : HostType := ⟨"User"⟩

def admin : HostType := ⟨"Admin"⟩

def owner : HostType := ⟨"Owner"⟩

def tag (this : HostValue) : Resolver := fun _ => .ok (.value (Value.ofJson this.data))

/-- The types are nodes 1, 2 and 3. -/
def registry : Registry := .ofDeclarations [
  .field user
    { name := "tag", type? := some .string, resolver? := some (Resolver.method user tag) },
  .object user {},
  .object admin { extends? := some ⟨admin, user⟩ },
  .object owner { extends? := some ⟨owner, admin⟩ }]

def ada : Instance := .sealed ⟨owner, .str "ada", []⟩

/-- The tag of an admin is handed the user in an owner. -/
theorem tag_of_owner : ∃ c s f,
    (Request.object 2).ask registry {} = .ok (.type (.object c)) s ∧
      c.fields.find? "tag" = some f ∧ registry.chain 3 = .ok [3, 2, 1] ∧
      (∀ call : FieldCall, call.parent = .instance ada → call.lineage = registry.lineage →
        call.Sees registry [3, 2, 1] ada) ∧
      ∀ table raw context?, f.resolver.resolve table (.instance ada) raw context? =
        { f.resolver with explicit? := some (tag ⟨user, .str "ada", [owner, admin]⟩) }.resolve
          table (.instance ada) raw context? := by
  have hown : registry.OwnLinks := by decide
  have hchain : registry.chain 3 = .ok [3, 2, 1] := rfl
  obtain ⟨_, hasked⟩ := Request.ask_of_isAnswered
    (show (Request.object 2).isAnswered registry {} = true by decide)
  obtain ⟨c, -, rfl⟩ := Compile.map_eq_ok.mp hasked
  -- The field is compiled from the declaration of the user.
  have hflattens := Meaning.flattens_of_object (Request.meaning_of_ask_object .refl hasked)
    (show registry.chain 2 = .ok [2, 1] from rfl)
  have hname : "tag" ∈ c.fields.keys :=
    (hflattens.names "tag").mpr (Or.inl ⟨1, by decide, by decide⟩)
  obtain ⟨i, f, hi, hf, hof⟩ := hflattens.chosen "tag" hname
  have hdecl : registry.flattened? [2, 1] (registry.interfaceOrder [2, 1]) "tag" = some 0 := by
    decide
  obtain rfl : 0 = i := Option.some.inj (hdecl.symm.trans hi)
  obtain ⟨n, hn, -, -, -, hresolver⟩ := hof.texts
  have hmethod : n.decl.resolver? = some (Resolver.method user tag) := by
    rw [← Node.field.inj (show Node.field _ = Node.field n from hn)]
  obtain ⟨hsees, hmethods⟩ :=
    Registry.Reached.methods_see_their_part (Registry.Reached.ofDeclarations _) hown
  have hextends : registry.Parent 3 2 := ⟨_, _, rfl, rfl, rfl⟩
  have huser : registry.Parent 2 1 := ⟨_, _, rfl, rfl, rfl⟩
  obtain ⟨chain, hchain', -, hparts⟩ := hmethods .refl hasked hf (.single huser)
    (hresolver.trans hmethod) (.single hextends) (show ada.type = owner from rfl)
  obtain rfl : [3, 2, 1] = chain := Except.ok.inj (hchain.symm.trans hchain')
  obtain ⟨part, hpart, hresolve⟩ := @hparts [3, 2] [] rfl
  have hseen : ada.value.along (registry.links [3, 2])
      = some ⟨user, .str "ada", [owner, admin]⟩ := rfl
  obtain rfl := Option.some.inj (hseen.symm.trans hpart)
  exact ⟨c, _, f, hasked, hf, hchain, fun call => hsees hchain rfl, hresolve⟩

end Staff

end SchemaGraph
