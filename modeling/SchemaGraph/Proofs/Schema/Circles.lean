import SchemaGraph.Proofs.Compile.Parents
import SchemaGraph.Proofs.Schema.Resolution

/-!
# Circles in the lineage of a bundle

That objects extend each other in a circle is noticed when the chain of one of them is
needed. The chain of an object is needed when the object is compiled, and the chains of
all objects when an interface or a member of a union is. In a bundle that is accepted no
compiled object is in a circle, then; but the lineage holds the links of all objects, and
of those that are not compiled nobody may have looked. The walk that decides what is
compiled beside the roots follows what the ancestors of an object declare, the compiler
does not, so a circle can be met by the one and missed by the other.
-/

set_option autoImplicit false

namespace SchemaGraph

variable {r : Registry} {b : SchemaBundle} {s : CompileState} {A : NodeId → Prop}

/-- The links that the resolvers of a bundle look along lead in no circle, and whoever asks
for a parent is answered. -/
structure SchemaBundle.AnswersParents (r : Registry) (b : SchemaBundle) : Prop where
  straight : ∀ t, ¬ Relation.TransGen r.lineage.Next t t
  returns : ∀ d ∈ b.definitions, ∀ f ∈ d.outputFields, ∀ call : FieldCall,
    call.lineage = f.resolver.lineage → call.Returns

/-! ## What is compiled has a chain -/

namespace CompileState.Settled

theorem chainOf_of_keeps (hs : s.Settled r A) {o : NodeId} (ho : s.Keeps o)
    (hobject : (r.node o).isObject = true) : ∃ chain, r.ChainOf o chain := by
  obtain ⟨c, -, hc⟩ := hs.mem_definitions_of_object ho hobject
  obtain ⟨_, chain, _, -, hchain, -⟩ := Meaning.object_eq_ok hc
  exact ⟨chain, Registry.chainOf_of_chain hchain⟩

theorem not_inCircle (hs : s.Settled r A) {o : NodeId} (ho : s.Keeps o) : ¬ r.InCircle o := by
  intro hcircle
  obtain ⟨chain, hchain⟩ := hs.chainOf_of_keeps ho hcircle.isObject
  exact hchain.not_circle hcircle

/-- Where an interface is compiled all objects have chains. -/
theorem not_interface_of_inCircle (hs : s.Settled r A) (hr : r.WellFormed) {o : NodeId}
    (ho : r.InCircle o) (t : CompiledInterface) : .interface t ∉ s.definitions := by
  intro ht
  rcases hs.of_mem_definitions ht with ⟨i, hi, hmeaning⟩ | ⟨hdecl, -⟩
  · have hinterface := Meaning.interface_of_type hmeaning
    obtain ⟨n, _, implementers, hn, -, himpl, -⟩ := Meaning.interface_eq_ok hinterface
    by_cases hinherits : r.Inherits o i
    · exact hs.not_inCircle (hs.keeps_of_inherits hr hi (by rw [hn]; rfl) hinherits) ho
    · obtain ⟨chain, hchain⟩ := Registry.chain_of_implementers himpl
        (hr.mem_objects.mpr ho.isObject) fun hmem => hinherits ((hr.mem_implementers himpl).mp hmem)
      exact (Registry.chainOf_of_chain hchain).not_circle ho
  · cases hdecl

/-- So they do where a union has members. -/
theorem possibleTypes_of_inCircle (hs : s.Settled r A) (hr : r.WellFormed) {o : NodeId}
    (ho : r.InCircle o) {u : CompiledUnion} (hu : .union u ∈ s.definitions) :
    u.possibleTypes = [] := by
  obtain ⟨d, hmeaning, hknown⟩ := hs.of_union_mem hu
  obtain ⟨⟨ms, ds⟩, hmembers, rfl⟩ := Meaning.map_eq_ok.mp hmeaning
  obtain ⟨hall, hms, -⟩ := Meaning.unionMembers_eq_ok hmembers
  cases hd : d.members with
  | nil =>
      rw [hd] at hms
      have hempty : ms = [] := List.eq_nil_iff_forall_not_mem.mpr fun e he => by
        simpa using (hms e).mp he
      rw [hempty]
      rfl
  | cons t rest =>
      have ht : t ∈ d.members := hd ▸ List.mem_cons_self
      obtain ⟨id, extending, hid, -, hextending⟩ := hall t ht
      have hkept : s.Keeps id := hs.keeps (hknown _ (Or.inr ⟨t, ht, id, hid, rfl⟩))
      have hne : o ≠ id := by
        rintro rfl
        exact hs.not_inCircle hkept ho
      obtain ⟨chain, hchain⟩ :=
        Registry.chain_of_descendants hextending (hr.mem_objects.mpr ho.isObject) hne
      exact absurd ho (Registry.chainOf_of_chain hchain).not_circle

end CompileState.Settled

/-! ## What is accepted -/

/-- Whatever resolver of a bundle asks, it looks along the links of all objects. -/
theorem CompileState.Settled.lineage_of_mem (hs : s.Settled r A) {d : CompiledType}
    (hd : d ∈ s.definitions) {f : CompiledField} (hf : f ∈ d.outputFields) :
    f.resolver.lineage = r.lineage := by
  rcases hs.of_mem_definitions hd with ⟨id, -, hmeaning⟩ | ⟨hdecl, -⟩
  · obtain ⟨_, hof, -⟩ := Meaning.mem_outputFields hmeaning hf
    obtain ⟨_, _, _, ⟨i, n, owner, -, -, hfield⟩, -⟩ := hof.output
    exact Meaning.lineage_of_field hfield
  · rw [(CompiledType.members_of_not_declared hdecl).1] at hf
    cases hf

/-- The resolvers of an accepted schema answer whoever asks for a parent exactly when no
object that the compiler was not led to is in a circle. The objects it was led to are in
none, and their instances are answered in any case; and an object that is in one can only
go unnoticed where the bundle has no interface and no union with members. -/
theorem SchemaBundle.answersParents_iff_of_ofRegistry (hr : r.Reached) {roots : SchemaRoots}
    {config : SchemaConfig} (h : ofRegistry r roots config = .ok b) :
    ∃ starts, r.starts roots = .ok starts ∧
      (b.AnswersParents r ↔ ∀ o, ¬ r.LedTo starts o → ¬ r.InCircle o) ∧
      (∀ o, r.LedTo starts o → (r.node o).isObject = true → ∀ (i : Instance) (call : FieldCall),
        i.type = (r.node o).type → call.parent = .instance i → call.lineage = r.lineage →
        call.Returns) ∧
      ∀ o, r.InCircle o → ¬ r.LedTo starts o ∧ (∀ t, .interface t ∉ b.definitions) ∧
        ∀ u, .union u ∈ b.definitions → u.possibleTypes = [] := by
  have hwf := hr.wellFormed
  obtain ⟨starts, s, hassembled⟩ := ofRegistry_ok h
  have hs := hassembled.settled
  have hkeeps : ∀ {o}, r.LedTo starts o → s.Keeps o := (hs.keeps_iff hassembled.keeps).mpr
  refine ⟨starts, hassembled.asked, ?_, ?_, ?_⟩
  · constructor
    · intro hanswers o _ ho
      obtain ⟨t, ht⟩ := hwf.circle_iff.mpr ⟨o, ho⟩
      exact hanswers.straight t ht
    · intro hnone
      have hstraight : ∀ t, ¬ Relation.TransGen r.lineage.Next t t := by
        intro t ht
        obtain ⟨o, ho⟩ := hwf.circle_iff.mp ⟨t, ht⟩
        exact hnone o (fun hled => hs.not_inCircle (hkeeps hled) ho) ho
      refine ⟨hstraight, fun d hd f hf call hcall => ?_⟩
      rw [hassembled.definitions] at hd
      rw [hs.lineage_of_mem hd hf] at hcall
      exact FieldCall.returns_iff.mpr fun i _ t => hcall ▸ Lineage.not_circles hstraight _
  · intro o hled hobject i call hi hparent hlineage
    obtain ⟨chain, hchain⟩ := hs.chainOf_of_keeps (hkeeps hled) hobject
    refine FieldCall.returns_iff.mpr fun i' hparent' t => ?_
    obtain rfl : i = i' := Parent.instance.inj (hparent.symm.trans hparent')
    rw [hlineage, hi]
    exact hchain.not_circles hwf t
  · intro o ho
    rw [hassembled.definitions]
    exact ⟨fun hled => hs.not_inCircle (hkeeps hled) ho,
      hs.not_interface_of_inCircle hwf ho, fun u hu => hs.possibleTypes_of_inCircle hwf ho hu⟩

/-- In the bundle of the people nothing extends anything in a circle. -/
theorem People.answersParents_query : ∃ b,
    SchemaBundle.ofRegistry registry ⟨query, none⟩ {} = .ok b ∧ b.AnswersParents registry := by
  obtain ⟨b, hb⟩ := accepted
  obtain ⟨starts, -, hanswers, -, -⟩ :=
    SchemaBundle.answersParents_iff_of_ofRegistry (Registry.Reached.ofDeclarations _) hb
  refine ⟨b, hb, hanswers.mpr fun o _ ho => ?_⟩
  have hwf := (Registry.Reached.ofDeclarations _ : registry.Reached).wellFormed
  have hchains : ∀ o ∈ registry.objects, (registry.chain o).isOk = true := by decide
  obtain ⟨chain, hchain⟩ := exists_ok_of_isOk (hchains o (hwf.mem_objects.mpr ho.isObject))
  exact (Registry.chainOf_of_chain hchain).not_circle ho

/-! ### A ring

Each of two objects extends the other. The base of the query mentions one of them in a
field that the query replaces. -/

namespace Ring

def one : HostType := ⟨"One"⟩

def other : HostType := ⟨"Other"⟩

def base : HostType := ⟨"Base"⟩

def query : HostType := ⟨"Query"⟩

/-- The types are nodes 0, 1, 3 and 5. -/
def registry : Registry := .ofDeclarations [
  .object one { extends? := some ⟨one, other⟩ },
  .object other { extends? := some ⟨other, one⟩ },
  .field base { name := "ring", type? := some (.ref one) },
  .object base {},
  .field query { name := "ring", type? := some .string },
  .object query { extends? := some ⟨query, base⟩ }]

theorem inCircle : registry.InCircle 0 := by
  have hthere : registry.Parent 0 1 := ⟨_, _, rfl, rfl, rfl⟩
  have hback : registry.Parent 1 0 := ⟨_, _, rfl, rfl, rfl⟩
  exact .head hthere (.single hback)

/-- The schema is accepted, and its resolvers look along the links of the ring: whatever
number of steps it is allowed, a search of the one for a query comes to no end. -/
theorem one_endless : ∃ b,
    SchemaBundle.ofRegistry registry ⟨query, none⟩ {} = .ok b ∧ registry.OwnLinks ∧
      ¬ b.AnswersParents registry ∧ ∃ d ∈ b.definitions, ∃ f ∈ d.outputFields,
        (∃ t, Relation.TransGen f.resolver.lineage.Next t t) ∧
        ∀ v : HostValue, v.type = one → ∀ steps,
          f.resolver.lineage.follow base steps v v.type = .endless := by
  have hwf := (Registry.Reached.ofDeclarations _ : registry.Reached).wellFormed
  have hown : registry.OwnLinks := by decide
  have hcircle := hwf.circle_iff.mpr ⟨0, inCircle⟩
  have hkeys : (SchemaBundle.ofRegistry registry ⟨query, none⟩ {}).toOption.map
      (fun b => b.query.fields.keys) = some ["ring"] := by decide
  obtain ⟨b, hb, hfields⟩ := exists_ok_of_map hkeys
  obtain ⟨f, hf⟩ : ∃ f, b.query.fields.find? "ring" = some f := by
    rw [← OrderedMap.contains_iff, ← OrderedMap.mem_keys_iff, hfields]
    exact List.mem_singleton_self _
  have hmem : f ∈ (CompiledType.object b.query).outputFields :=
    OrderedMap.mem_values.mpr ⟨_, OrderedMap.mem_of_find? hf⟩
  obtain ⟨starts, s, hassembled⟩ := SchemaBundle.ofRegistry_ok hb
  have hquery := hassembled.closed.query
  have hlineage : f.resolver.lineage = registry.lineage :=
    hassembled.settled.lineage_of_mem (hassembled.definitions ▸ hquery) hmem
  refine ⟨b, hb, hown, fun hanswers => ?_, .object b.query, hquery, f, hmem, ?_, ?_⟩
  · obtain ⟨t, ht⟩ := hcircle
    exact hanswers.straight t ht
  · rw [hlineage]
    exact hcircle
  · intro v hv steps
    rw [hlineage]
    refine Lineage.follow_of_circles ?_
    rw [hv]
    exact inCircle.circles hwf hown (by decide)

end Ring

end SchemaGraph
