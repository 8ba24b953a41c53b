import SchemaGraph.Proofs.Compile.Unions
import SchemaGraph.Proofs.Schema.Definitions

/-!
# Names in a bundle

Declared types are kept by their nodes and everything else by name, so the names
of all come together only in the definitions of a bundle. Nobody compares them
there. Two nodes of one name are two definitions of that name, a node and an enum
are too, and of two scalars or enums of one name the bundle has the first and the
fields of the other refer to it.

Whether that happens can be read off the registry: from the names of the nodes
that the bundle is made of, and from what these use.
-/

set_option autoImplicit false

namespace SchemaGraph

open CompileState

variable {r : Registry} {s : CompileState} {starts : List NodeId}

/-! ## What is given -/

namespace GivenType

variable {g g' : GivenType} {t : CompiledType}

theorem Defines.isDeclared (h : g.Defines t) : t.isDeclared = false := by
  cases g with
  | scalar d | enum d =>
      cases h
      rfl
  | union d =>
      obtain ⟨u, rfl⟩ := h
      rfl

theorem Defines.name_eq (h : g.Defines t) (hleaf : g.IsLeaf) : t.name = g.name := by
  cases g with
  | scalar d | enum d =>
      cases h
      rfl
  | union d => exact hleaf.elim

/-- A definition of a scalar or an enum defines nothing else. -/
theorem Defines.unique (h : g.Defines t) (hleaf : g.IsLeaf) (h' : g'.Defines t) : g = g' := by
  cases g with
  | union d => exact hleaf.elim
  | scalar d | enum d =>
      cases h
      cases g' with
      | scalar d' | enum d' => cases h' <;> rfl
      | union d' => obtain ⟨u, ⟨⟩⟩ := h'

end GivenType

/-! ## Names that are apart -/

/-- No two nodes that `starts` lead to share a name, and none shares it with a type
that is given on the spot to one of them. -/
structure Registry.NamesApart (r : Registry) (starts : List NodeId) : Prop where
  nodes : ∀ {id other}, r.LedTo starts id → r.LedTo starts other →
    (r.node id).displayName = (r.node other).displayName → id = other
  given : ∀ {id other g}, r.LedTo starts id → r.LedTo starts other → r.Uses other g →
    g.name ≠ (r.node id).displayName

/-- A scalar or an enum that is used is the only type used that is given under its
name. -/
def Registry.LeavesAgree (r : Registry) (starts : List NodeId) : Prop :=
  ∀ {id other g g'}, r.LedTo starts id → r.LedTo starts other → r.Uses id g →
    r.Uses other g' → g.IsLeaf → g.name = g'.name → g = g'

/-- Every scalar and enum that is used is a definition of the bundle, as it is. -/
def SchemaBundle.DefinesLeaves (r : Registry) (starts : List NodeId) (b : SchemaBundle) :
    Prop :=
  ∀ {id g}, r.LedTo starts id → r.Uses id g → g.IsLeaf →
    ∃ t ∈ b.definitions, g.Defines t

/-! ## Assembly is a run -/

theorem Compile.namedTypes_answered {ids : List NodeId} :
    ∀ {qs : List Request} {s s' : CompileState} {ts : List CompiledType}, s.Answered r qs →
      ids.mapM (fun id => namedType r (.node id)) s = .ok ts s' →
      ∃ asked, s'.Answered r (asked ++ qs) ∧
        ∀ q ∈ asked, ∃ id ∈ ids, q = .named (.node id) := by
  induction ids with
  | nil =>
      intro qs s s' ts hs h
      rw [List.mapM_nil] at h
      obtain ⟨-, rfl⟩ := pure_eq_ok.mp h
      exact ⟨[], hs, by simp⟩
  | cons i rest ih =>
      intro qs s s' ts hs h
      simp only [List.mapM_cons, bind_eq_ok, pure_eq_ok] at h
      obtain ⟨t, s₁, hrun, ts, _, hrest, -, rfl⟩ := h
      have hask : (Request.named (.node i)).ask r s = .ok (.type t) s₁ :=
        map_eq_ok.mpr ⟨t, hrun, rfl⟩
      obtain ⟨asked, hanswered, hasked⟩ := ih (hs.next hask) hrest
      refine ⟨asked ++ [.named (.node i)], by simpa using hanswered, fun q hq => ?_⟩
      rcases List.mem_append.mp hq with hq | hq
      · obtain ⟨id, hid, rfl⟩ := hasked q hq
        exact ⟨id, by simp [hid], rfl⟩
      · exact ⟨i, by simp, List.mem_singleton.mp hq⟩

/-- What is asked on the way to a bundle: the starts and nothing else. -/
theorem SchemaBundle.answered_of_assemble {roots : SchemaRoots} {config : SchemaConfig}
    {b : SchemaBundle} (h : assemble r roots config {} = .ok b s) :
    ∃ starts qs, r.starts roots = .ok starts ∧ s.Answered r qs ∧
      ∀ q ∈ qs, ∃ id ∈ starts, q = .object id ∨ q = .named (.node id) := by
  obtain ⟨queryId, mutationId?, unmet, s₁, s₂, hstarts, hquery, hmutation, htypes, -⟩ :=
    assemble_eq_ok h
  have hroot : s₁.Answered r [.object queryId] :=
    Answered.start.next (Compile.map_eq_ok.mpr ⟨_, hquery, rfl⟩)
  have hroots : s₂.Answered r
      (mutationId?.toList.map Request.object ++ [Request.object queryId]) := by
    cases mutationId? with
    | none =>
        obtain ⟨-, rfl⟩ := Compile.pure_eq_ok.mp hmutation
        exact hroot
    | some id =>
        obtain ⟨c, hrun, -⟩ := Compile.map_eq_ok.mp hmutation
        exact hroot.next (Compile.map_eq_ok.mpr ⟨c, hrun, rfl⟩)
  obtain ⟨asked, hanswered, hasked⟩ := Compile.namedTypes_answered hroots htypes
  refine ⟨_, _, hstarts, hanswered, fun q hq => ?_⟩
  rcases List.mem_append.mp hq with hq | hq
  · obtain ⟨id, hid, rfl⟩ := hasked q hq
    exact ⟨id, by simp [hid], Or.inr rfl⟩
  rcases List.mem_append.mp hq with hq | hq
  · obtain ⟨id, hid, rfl⟩ := List.mem_map.mp hq
    exact ⟨id, by simp [Option.mem_toList.mp hid], Or.inl rfl⟩
  · exact ⟨queryId, by simp, Or.inl (List.mem_singleton.mp hq)⟩

/-- Assembly gathers what the nodes use that it is led to. -/
theorem SchemaBundle.gathers_of_assemble {roots : SchemaRoots} {config : SchemaConfig}
    {b : SchemaBundle} (h : assemble r roots config {} = .ok b s)
    (hstarts : r.starts roots = .ok starts) :
    Gathers r (r.LedTo starts) (fun _ => False) {} s := by
  obtain ⟨starts', qs, hstarts', hanswered, hqs⟩ := answered_of_assemble h
  obtain rfl : starts = starts' := Except.ok.inj (hstarts.symm.trans hstarts')
  refine (hanswered.gathers (.closed r starts) fun q hq id hid => ?_).congr fun g => ?_
  · obtain ⟨start, hstart, rfl | rfl⟩ := hqs q hq
    · obtain rfl : id = start := hid
      exact .start hstart
    · obtain rfl : id = start := by
        cases hid
        rfl
      exact .start hstart
  · refine ⟨False.elim, ?_⟩
    rintro ⟨q, hq, huse⟩
    obtain ⟨start, -, rfl | rfl⟩ := hqs q hq
    · exact huse
    · exact huse

/-! ## The names of the definitions -/

/-- The definitions have the names of the kept nodes and the names that something is
given under. -/
theorem CompileState.Sound.names_definitions {A W : NodeId → Prop} (h : Sound r A W s) :
    s.definitions.map (·.name)
      = s.keptIds.map (fun id => (r.node id).displayName) ++ s.given.keys := by
  have hdeclared : s.keptIds.map (fun id => (r.node id).displayName)
      = (s.definitions.filter (·.isDeclared)).map (·.name) := by
    rw [← List.forall₂_eq_eq_eq, List.forall₂_map_left_iff, List.forall₂_map_right_iff]
    exact h.forall₂_keptIds.imp fun _ _ ht => (Meaning.type_name ht).symm
  have hgiven : s.given.values.map (·.name) = s.given.keys := by
    rw [OrderedMap.values, OrderedMap.keys, List.map_map]
    exact List.map_congr_left fun e he => (h.given (OrderedMap.find?_eq_some_iff.mpr he)).1
  rw [hdeclared, h.filter_definitions, ← hgiven, ← List.map_append]
  rfl

/-- A definition that is given on the spot is the one its name is looked up as. -/
theorem CompileState.Sound.mem_definitions_iff {A W : NodeId → Prop} (h : Sound r A W s)
    {t : CompiledType} (ht : t.isDeclared = false) :
    t ∈ s.definitions ↔ s.given.find? t.name = some t := by
  have hvalues : t ∈ s.definitions ↔ t ∈ s.given.values := by
    simp only [definitions, List.mem_append, List.mem_map]
    constructor
    · rintro (((⟨_, -, rfl⟩ | ⟨_, -, rfl⟩) | ⟨_, -, rfl⟩) | hgiven)
      · cases ht
      · cases ht
      · cases ht
      · exact hgiven
    · exact Or.inr
  rw [hvalues, OrderedMap.mem_values]
  constructor
  · rintro ⟨name, hname⟩
    have hfound := OrderedMap.find?_eq_some_iff.mpr hname
    rwa [(h.given hfound).1]
  · exact fun hfound => ⟨t.name, OrderedMap.find?_eq_some_iff.mp hfound⟩

section

variable {roots : SchemaRoots} {b : SchemaBundle}

theorem CompileState.Gathers.from_use {N : NodeId → Prop}
    (hg : Gathers r N (fun _ => False) {} s) {name : String} {t : CompiledType}
    (ht : s.given.find? name = some t) :
    ∃ id g, N id ∧ r.Uses id g ∧ g.name = name ∧ g.Defines t := by
  rcases hg.origin ht with ht | ⟨g, huse | ⟨id, hid, huse⟩, hname, hdefines⟩
  · cases ht
  · exact huse.elim
  · exact ⟨id, g, hid, huse, hname, hdefines⟩

variable (ha : b.Assembled r roots starts s)
  (hg : Gathers r (r.LedTo starts) (fun _ => False) {} s)

include ha

theorem SchemaBundle.Assembled.given_of_uses {id : NodeId} {g : GivenType}
    (hid : r.LedTo starts id) (huse : r.Uses id g) : s.given.contains g.name = true :=
  ha.settled.leads ((ha.settled.keeps_iff ha.keeps).mpr hid) (Registry.leads_of_uses huse)

include hg

/-- Something is given under a name exactly if the name is used. -/
theorem SchemaBundle.Assembled.mem_given_keys {name : String} : name ∈ s.given.keys ↔
    ∃ id g, r.LedTo starts id ∧ r.Uses id g ∧ g.name = name := by
  constructor
  · intro hname
    obtain ⟨t, ht⟩ := OrderedMap.contains_iff.mp (OrderedMap.mem_keys_iff.mp hname)
    obtain ⟨id, g, hid, huse, hname, -⟩ := hg.from_use ht
    exact ⟨id, g, hid, huse, hname⟩
  · rintro ⟨id, g, hid, huse, rfl⟩
    exact OrderedMap.mem_keys_iff.mpr (ha.given_of_uses hid huse)

theorem SchemaBundle.Assembled.nodup_names_iff :
    (b.definitions.map (·.name)).Nodup ↔ r.NamesApart starts := by
  have hkept : ∀ id, id ∈ s.keptIds ↔ r.LedTo starts id := fun id =>
    mem_keptIds.trans (ha.settled.keeps_iff ha.keeps)
  rw [ha.definitions, ha.settled.sound.names_definitions, List.nodup_append]
  constructor
  · rintro ⟨hnodes, -, hapart⟩
    refine ⟨fun hid hother heq => ?_, fun {id other g} hid hother huse heq => ?_⟩
    · exact List.inj_on_of_nodup_map hnodes ((hkept _).mpr hid) ((hkept _).mpr hother) heq
    · exact hapart _ (List.mem_map_of_mem ((hkept id).mpr hid)) _
        ((ha.mem_given_keys hg).mpr ⟨other, g, hother, huse, rfl⟩) heq.symm
  · rintro ⟨hnodes, hapart⟩
    refine ⟨?_, s.given.nodup_keys, ?_⟩
    · refine List.Nodup.map_on (fun id hid other hother heq => ?_) ha.settled.sound.nodup_keptIds
      exact hnodes ((hkept id).mp hid) ((hkept other).mp hother) heq
    · rintro _ hname name hgiven rfl
      obtain ⟨id, hid, hname⟩ := List.mem_map.mp hname
      obtain ⟨other, g, hother, huse, hg⟩ := (ha.mem_given_keys hg).mp hgiven
      exact hapart ((hkept id).mp hid) hother huse (hg.trans hname.symm)

/-- If every scalar and enum is defined as it is, so is what is kept under the name of a
type that is used. -/
theorem SchemaBundle.Assembled.find?_given (hleaves : b.DefinesLeaves r starts) {id : NodeId}
    {g : GivenType} (hid : r.LedTo starts id) (huse : r.Uses id g) :
    ∃ t, s.given.find? g.name = some t ∧ g.Defines t := by
  cases g with
  | union d =>
      have hkept := (ha.settled.keeps_iff ha.keeps).mpr hid
      obtain ⟨u, hu⟩ := (hg.stands hkept huse).find?
      exact ⟨_, hu, u, rfl⟩
  | scalar d | enum d =>
      obtain ⟨t, ht, hdefines⟩ := hleaves hid huse trivial
      rw [ha.definitions, ha.settled.sound.mem_definitions_iff hdefines.isDeclared,
        hdefines.name_eq trivial] at ht
      exact ⟨t, ht, hdefines⟩

theorem SchemaBundle.Assembled.definesLeaves_iff :
    b.DefinesLeaves r starts ↔ r.LeavesAgree starts := by
  constructor
  · intro hleaves id other g g' hid hother huse huse' hleaf hname
    obtain ⟨t, ht, hdefines⟩ := ha.find?_given hg hleaves hid huse
    obtain ⟨t', ht', hdefines'⟩ := ha.find?_given hg hleaves hother huse'
    obtain rfl : t = t' := Option.some.inj (ht.symm.trans (hname ▸ ht'))
    exact hdefines.unique hleaf hdefines'
  · intro hagree id g hid huse hleaf
    obtain ⟨t, ht⟩ := OrderedMap.contains_iff.mp (ha.given_of_uses hid huse)
    obtain ⟨other, g', hother, huse', hname, hdefines⟩ := hg.from_use ht
    obtain rfl := hagree hid hother huse huse' hleaf hname.symm
    refine ⟨t, ?_, hdefines⟩
    rw [ha.definitions, ha.settled.sound.mem_definitions_iff hdefines.isDeclared,
      hdefines.name_eq hleaf]
    exact ht

end

/-- The definitions of a bundle have different names exactly if the nodes it is led to
have, and have other names than what they use; and it defines every scalar and enum
exactly if no two types that are used are given under the name of one. -/
theorem SchemaBundle.names_of_ofRegistry {roots : SchemaRoots} {config : SchemaConfig}
    {b : SchemaBundle} (h : ofRegistry r roots config = .ok b) :
    ∃ starts, r.starts roots = .ok starts ∧
      ((b.definitions.map (·.name)).Nodup ↔ r.NamesApart starts) ∧
      (b.DefinesLeaves r starts ↔ r.LeavesAgree starts) := by
  obtain ⟨s, hrun⟩ := ofRegistry_eq_ok h
  obtain ⟨starts, hassembled⟩ := assembled_of_assemble hrun
  have hgathers := gathers_of_assemble hrun hassembled.asked
  exact ⟨starts, hassembled.asked, hassembled.nodup_names_iff hgathers,
    hassembled.definesLeaves_iff hgathers⟩

/-- The names in the registry of people are apart, since those of the bundle are. -/
theorem People.names_apart : ∃ b starts,
    SchemaBundle.ofRegistry registry ⟨query, none⟩ {} = .ok b ∧
      registry.starts ⟨query, none⟩ = .ok starts ∧ registry.NamesApart starts ∧
      (b.DefinesLeaves registry starts ↔ registry.LeavesAgree starts) := by
  have hnames : (SchemaBundle.ofRegistry registry ⟨query, none⟩ {}).toOption.map
      (fun b => decide (b.definitions.map (·.name)).Nodup) = some true := by decide +kernel
  obtain ⟨b, hb, hnodup⟩ := exists_ok_of_map hnames
  obtain ⟨starts, hstarts, hapart, hleaves⟩ := SchemaBundle.names_of_ofRegistry hb
  exact ⟨b, starts, hb, hstarts, hapart.mp (of_decide_eq_true hnodup), hleaves⟩

/-! ### Namesakes

Two types of the host are called users in different modules, and both are declared
under that name. -/

namespace Namesakes

def user : HostType := ⟨"User"⟩

def altUser : HostType := ⟨"alt::User"⟩

def query : HostType := ⟨"Query"⟩

/-- The types are nodes 1, 3 and 5. -/
def registry : Registry := .ofDeclarations [
  .field user { name := "name", type? := some .string },
  .object user {},
  .field altUser { name := "id", type? := some .id },
  .object altUser {},
  .field query { name := "user", type? := some (.ref user) },
  .object query {}]

theorem users_defined : ∃ b,
    SchemaBundle.ofRegistry registry ⟨query, none⟩ {} = .ok b ∧
      b.definitions.map (·.name) = ["User", "Query", "User"] ∧
      ¬ (b.definitions.map (·.name)).Nodup := by
  have hdefined : (SchemaBundle.ofRegistry registry ⟨query, none⟩ {}).toOption.map
      (fun b => b.definitions.map (·.name)) = some ["User", "Query", "User"] := by
    decide +kernel
  obtain ⟨b, hb, hnames⟩ := exists_ok_of_map hdefined
  exact ⟨b, hb, hnames, by simp [hnames]⟩

end Namesakes

end SchemaGraph
