import SchemaGraph.Proofs.Declared.Tidy

/-!
# Failed declarations

A declaration that fails should leave no trace: the members that wait for a type go on
waiting, are reported as such, and belong to the type as soon as it is declared
properly. That is so for all declarations but one. An interface for which implements
edges wait is refused after its waiting room has been emptied, and everything that
waited there is lost.
-/

set_option autoImplicit false

namespace SchemaGraph

/-- The kind of node that is declared. -/
def Declaration.kind : Declaration → NodeKind
  | .object .. => .object
  | .interface .. => .interface
  | .inputObject .. => .inputObject
  | .args _ => .args
  | .field .. => .field
  | .inputField .. => .inputField
  | .arg .. => .arg
  | .implement .. => .implement

/-- Whoever claims arguments claims the fields that they belong to. -/
theorem NodeKind.claims_field {k : NodeKind} (h : k.claims .arg = true) :
    k.claims .field = true := by
  cases k <;> first | rfl | cases h

/-- Members claim nothing. -/
theorem NodeKind.not_claims_of_isMember {k k' : NodeKind} (h : k.isMember = true) :
    k.claims k' = false := by
  cases k <;> first | rfl | cases h

namespace Registry

variable {r r' : Registry} {t : HostType} {n : Node}

/-- The member belongs to the node: the node holds it, or one of its fields does, or it
is an argument for which there is no field. -/
def Claimed (r : Registry) (owner m : NodeId) : Prop :=
  m ∈ r.members (.heldBy owner (r.node m).kind) ∨
    (∃ f ∈ r.members (.heldBy owner .field), m ∈ r.members (.heldBy f .arg)) ∨
    m ∈ r.members .stray

/-- What a new type claims belongs to it. -/
theorem Claims.claimed (hr : r.Tidy) (hc : r.Claims r' t n) {m : NodeId}
    (hm : m ∈ r.staged t) (hclaims : n.kind.claims (r.node m).kind = true) :
    r'.Claimed r.size m := by
  have hmoved : ∀ {m p}, m ∈ r.staged t → r.destination t n.kind m = some p →
      m ∈ r'.members p := fun hm hp => by
    rw [hc.moves]
    exact List.mem_append_right _ (List.mem_filter.mpr ⟨hm, decide_eq_true hp⟩)
  by_cases harg : (r.node m).kind = .arg
  · have hdest : r.destination t n.kind m = some (r.argPlace (r.stagedOf t .field) m) :=
      destination_eq_some.mpr ⟨hclaims, Or.inl ⟨harg, rfl⟩⟩
    cases hplace : r.argPlace (r.stagedOf t .field) m with
    | waiting t' => exact absurd hplace argPlace_ne_waiting
    | stray => exact Or.inr (Or.inr (hmoved hm (hplace ▸ hdest)))
    | heldBy f k =>
        obtain ⟨rfl, hf, -⟩ := argPlace_eq_heldBy hplace
        have hkind : (r.node f).kind = .field := of_decide_eq_true (List.mem_filter.mp hf).2
        refine Or.inr (Or.inl ⟨f, hmoved (mem_staged_of_stagedOf hf) ?_,
          hmoved hm (hplace ▸ hdest)⟩)
        rw [destination_eq_some, hkind]
        exact ⟨NodeKind.claims_field (harg ▸ hclaims), Or.inr ⟨by simp, rfl⟩⟩
  · refine Or.inl (hmoved hm (destination_eq_some.mpr ⟨hclaims, Or.inr ⟨harg, ?_⟩⟩))
    rw [Node.kind_of_own ((hr.rearranges_claims hc).own (hr.wellFormed.staged hm))]

/-- Nothing is left waiting for a new type. -/
theorem Claims.staged (hc : r.Claims r' t n) (t' : HostType) :
    r'.staged t' = if t' = t then [] else r.staged t' := by
  have hmoves := hc.moves (.waiting t')
  rw [List.filter_eq_nil_iff.mpr, List.append_nil] at hmoves
  · simpa only [members, Place.waiting.injEq] using hmoves
  · intro m _ hdest
    rcases destination_eq_some.mp (of_decide_eq_true hdest) with ⟨-, ⟨-, hplace⟩ | ⟨-, hplace⟩⟩
    · exact argPlace_ne_waiting hplace
    · cases hplace

end Registry

namespace Declaration

variable {r r' : Registry} {d : Declaration} {m : NodeId} {t : HostType}

/-- What a declaration does to the members: either it adds one that waits, or it
declares a type, which claims what waits for it. -/
theorem Accepted.stages_or_claims (hr : r.WellFormed) (hd : d.Accepted r r') :
    (∃ n, r' = r.stage d.type n ∧ d.kind.isMember = true) ∨
      ∃ n, r.Claims r' d.type n ∧ n.kind = d.kind ∧ d.kind.isMember = false := by
  cases hd with
  | @object t decl metadata _ _ =>
      exact Or.inr ⟨_, hr.claims_declareObject t decl metadata, rfl, rfl⟩
  | @interface t _ metadata _ _ _ =>
      exact Or.inr ⟨_, hr.claims_declareInterface t metadata, rfl, rfl⟩
  | @inputObject c _ metadata _ _ =>
      exact Or.inr ⟨_, hr.claims_declareInputObject c metadata, rfl, rfl⟩
  | @args c _ => exact Or.inr ⟨_, hr.claims_declareArgs c, rfl, rfl⟩
  | field _ | inputField _ | arg _ _ | implement _ _ => exact Or.inl ⟨_, rfl, rfl⟩

/-- A type that is accepted claims what waits for it. -/
theorem Accepted.claimed (hr : r.Tidy) (hd : d.Accepted r r') (hm : m ∈ r.staged d.type)
    (hclaims : d.kind.claims (r.node m).kind = true) : r'.Claimed r.size m := by
  rcases hd.stages_or_claims hr.wellFormed with ⟨n, -, hmember⟩ | ⟨n, hc, hkind, -⟩
  · rw [NodeKind.not_claims_of_isMember hmember] at hclaims
    cases hclaims
  · exact hc.claimed hr hm (hkind ▸ hclaims)

/-- The declaration does not end the wait for `t`. -/
def Spares (d : Declaration) (t : HostType) : Prop :=
  d.type = t → d.kind.isMember = true

/-- Members go on waiting until their type is declared. -/
theorem Spares.staged (hr : r.Tidy) (hd : d.Spares t) (hm : m ∈ r.staged t) :
    m ∈ (d.run.after r).staged t := by
  unfold RegistryM.after
  rcases d.run_cases r with ⟨e, hrun, -⟩ | ⟨e, hrun, t', decl, _, heq, -⟩ | ⟨r', hrun, haccepted⟩
  · rw [hrun]
    exact hm
  · rw [hrun, Registry.staged_unstage, if_neg]
    · exact hm
    · subst heq
      intro htype
      cases hd htype.symm
  · rw [hrun]
    rcases haccepted.stages_or_claims hr.wellFormed with ⟨n, rfl, -⟩ | ⟨n, hc, -, hmember⟩
    · rw [Registry.staged_stage]
      split
      · next heq => exact List.mem_append_left _ (heq ▸ hm)
      · exact hm
    · rw [hc.staged, if_neg]
      · exact hm
      · intro htype
        have := hd htype.symm
        rw [hmember] at this
        cases this

end Declaration

namespace Registry

variable {r r' : Registry} {t : HostType}

/-- What waited for `t` in the first registry waits in the second one, is reported, and
belongs to the type that is declared next on behalf of `t`. -/
structure Preserves (r r' : Registry) (t : HostType) : Prop where
  waits : ∀ {m}, m ∈ r.staged t → m ∈ r'.staged t
  reported : r.staged t ≠ [] → t ∈ r'.orphanedTypes
  claimed : ∀ {d : Declaration} {id r''}, d.run r' = .ok id r'' → d.type = t →
    d.kind.isMember = false → r''.staged t = [] ∧
      ∀ m ∈ r.staged t, d.kind.claims (r'.node m).kind = true → r''.Claimed id m

theorem mem_orphanedTypes {m : NodeId} (hm : m ∈ r.staged t) : t ∈ r.orphanedTypes := by
  rw [orphanedTypes, OrderedMap.mem_keys_iff, OrderedMap.contains_iff]
  unfold staged at hm
  cases hfind : r.waiting.find? t with
  | some ms => exact ⟨ms, rfl⟩
  | none =>
      rw [hfind] at hm
      cases hm

theorem not_mem_orphanedTypes_unstage : t ∉ (r.unstage t).orphanedTypes := by
  rw [orphanedTypes, OrderedMap.mem_keys_iff, OrderedMap.contains_iff, unstage,
    OrderedMap.find?_erase, if_pos rfl]
  simp

/-- Members that wait can only be claimed. -/
theorem preserves_of_staged (hr : r'.Tidy)
    (hwaits : ∀ {m}, m ∈ r.staged t → m ∈ r'.staged t) : r.Preserves r' t where
  waits := hwaits
  reported hne := by
    obtain ⟨m, hm⟩ := List.exists_mem_of_ne_nil _ hne
    exact mem_orphanedTypes (hwaits hm)
  claimed {d id r''} hrun htype hkind := by
    rcases d.run_cases r' with ⟨e, h, -⟩ | ⟨e, h, -⟩ | ⟨_, h, haccepted⟩
    · rw [h] at hrun
      cases hrun
    · rw [h] at hrun
      cases hrun
    · rw [h] at hrun
      cases hrun
      subst htype
      refine ⟨?_, fun m hm hclaims => haccepted.claimed hr (hwaits hm) hclaims⟩
      rcases haccepted.stages_or_claims hr.wellFormed with ⟨_, -, hmember⟩ | ⟨n, hc, -⟩
      · rw [hkind] at hmember
        cases hmember
      · rw [hc.staged, if_pos rfl]

/-- Declarations that spare `t` keep what waits for it. -/
theorem Tidy.preserves (hr : r.Tidy) {ds : List Declaration} (hds : ∀ d ∈ ds, d.Spares t) :
    r.Preserves (ds.foldl (fun r d => d.run.after r) r) t := by
  suffices h : ∀ {r₁ : Registry}, r₁.Tidy → (∀ {m}, m ∈ r.staged t → m ∈ r₁.staged t) →
      r.Preserves (ds.foldl (fun r d => d.run.after r) r₁) t from h hr id
  induction ds with
  | nil => exact preserves_of_staged
  | cons d rest ih =>
      exact fun hr₁ hwaits => ih (fun d' hd' => hds d' (List.mem_cons_of_mem _ hd'))
        (hr₁.run d) fun hm => (hds d List.mem_cons_self).staged hr₁ (hwaits hm)

end Registry

/-- A declaration that fails changes nothing, and what waits for its type will be claimed
when the type is declared at last. If it gives its members up, they are gone. -/
theorem Declaration.run_eq_error {r r' : Registry} {d : Declaration} {e : SchemaError}
    (hr : r.Reached) (h : d.run r = .error e r') :
    (¬ d.GivesUp r → r' = r ∧ ∀ ds : List Declaration, (∀ d' ∈ ds, d'.Spares d.type) →
      r.Preserves (ds.foldl (fun r d => d.run.after r) r') d.type) ∧
    (d.GivesUp r → r' = r.unstage d.type ∧ d.type ∈ r.orphanedTypes ∧
      d.type ∉ r'.orphanedTypes) := by
  rcases d.run_cases r with ⟨e', hrun, hkept⟩ | ⟨e', hrun, hgiven⟩ | ⟨_, hrun, -⟩
  · rw [hrun] at h
    cases h
    exact ⟨fun _ => ⟨rfl, fun ds => hr.tidy.preserves⟩, fun hgiven => absurd hgiven hkept⟩
  · rw [hrun] at h
    cases h
    refine ⟨fun hkept => absurd hgiven hkept,
      fun _ => ⟨rfl, ?_, Registry.not_mem_orphanedTypes_unstage⟩⟩
    obtain ⟨t, decl, _, rfl, -, -, hedges⟩ := hgiven
    obtain ⟨m, hm⟩ := List.exists_mem_of_ne_nil _ hedges
    exact Registry.mem_orphanedTypes (Registry.mem_staged_of_stagedOf hm)
  · rw [hrun] at h
    cases h

namespace Heirless

def entity : HostType := ⟨"Entity"⟩

def user : HostType := ⟨"User"⟩

/-- A field and an implements edge wait for the user. -/
def registry : Registry := .ofDeclarations [
  .field entity { name := "id", type? := some .string },
  .interface entity {},
  .field user { name := "name", type? := some .string },
  .implement user entity]

/-- A user with a bad name is refused, and the next declaration finds all that waited. -/
theorem object_refused : ∃ e r',
    (Declaration.object user { name? := some "bad name" }).run registry = .error e r' ∧
      r' = registry ∧ registry.Preserves r' user := by
  have hrun : (Declaration.object user { name? := some "bad name" }).run registry
      = .error (.invalidName "bad name") registry := rfl
  have hkept : ¬ (Declaration.object user { name? := some "bad name" }).GivesUp registry := by
    rintro ⟨_, _, _, heq, -⟩
    cases heq
  have hatomic := (Declaration.run_eq_error (.ofDeclarations _) hrun).1 hkept
  exact ⟨_, registry, hrun, rfl, hatomic.2 [] fun _ h => nomatch h⟩

/-- An interface with an implements edge is refused, and nothing is left of it. -/
theorem interface_gives_up : ∃ e r',
    (Declaration.interface user {}).run registry = .error e r' ∧ r' ≠ registry ∧
      registry.orphanedTypes = [user] ∧ r'.orphanedTypes = [] := by
  refine ⟨.notAnObject "User", registry.unstage user, rfl, fun heq => ?_, rfl, rfl⟩
  have : ([] : List HostType) = [user] := congrArg Registry.orphanedTypes heq
  cases this

end Heirless

end SchemaGraph
