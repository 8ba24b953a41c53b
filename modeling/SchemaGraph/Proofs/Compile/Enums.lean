import SchemaGraph.Proofs.Compile.Spelling
import SchemaGraph.Proofs.Input.Enums

/-!
# Enums that are accepted

An enum is made of keys for internal values, and its keys may be brought into another case. A
compiler accepts it when each name is one of the schema language. That is enough for the way
out: every internal value leaves under a valid name of its own key. It is not enough for the
way in. Two keys may become one name, which nobody looks for, and then the name comes back as
the internal value of the first of them, whichever was sent.
-/

set_option autoImplicit false

namespace SchemaGraph

open Compile

/-- The name that a key gets. -/
def EnumCase.rename : Option EnumCase → String → String
  | some case, key => case.apply key
  | none, key => key

/-- The output hook of the reference turns the internal value into the name. -/
def CompiledRef.Writes (c : CompiledRef) (internal : Json) (name : String) : Prop :=
  ∃ hook, c.hook? = some hook ∧ hook (.value (.ofJson internal)) = .value (.enum name)

namespace EnumDef

/-- The internal value goes out under a valid name, and that comes back as the internal
value. -/
def Carries (r : Registry) (d : EnumDef) (c : CompiledRef) (internal : Json) : Prop :=
  ∃ name, c.Writes internal name ∧ Text.IsName name ∧
    (TypeExpr.enum d).PassesAs r (.enum name) (.ofJson internal)

/-! ## Building -/

section

variable {case : Option EnumCase} {keys : List (String × Json)}

theorem map_name_buildValues (remarks : OrderedMap String EnumRemark) :
    (buildValues case remarks keys).map (·.name) = keys.map fun k => EnumCase.rename case k.1 := by
  induction keys generalizing remarks with
  | nil => rfl
  | cons k rest ih =>
      refine congrArg₂ List.cons ?_ (ih _)
      cases case <;> rfl

theorem map_internal_buildValues (remarks : OrderedMap String EnumRemark) :
    (buildValues case remarks keys).map (·.internal) = keys.map (·.2) := by
  induction keys generalizing remarks with
  | nil => rfl
  | cons k rest ih =>
      exact congrArg₂ List.cons rfl (ih _)

variable {name : String} {description : Option String} {remarks : List (String × EnumRemark)}

theorem names_build : (build name description case keys remarks).values.map (·.name)
    = keys.map fun k => EnumCase.rename case k.1 := map_name_buildValues _

theorem internals_build : (build name description case keys remarks).values.map (·.internal)
    = keys.map (·.2) := map_internal_buildValues _

/-- What holds of the internal values holds of those that are declared with the keys. -/
theorem forall_internals_build {P : Json → Prop} :
    (∀ v ∈ (build name description case keys remarks).values, P v.internal) ↔
      ∀ k ∈ keys, P k.2 := by
  rw [← List.forall_mem_map, internals_build, List.forall_mem_map]

theorem tellsApart_build (hapart : keys.Pairwise fun k l => k.2.same l.2 = false)
    (hpresent : ∀ k ∈ keys, k.2.isNull = false) :
    (build name description case keys remarks).TellsApart where
  apart := by
    have hmapped : ((build name description case keys remarks).values.map (·.internal)).Pairwise
        fun i j => i.same j = false := by
      rw [internals_build]
      exact List.pairwise_map.mpr hapart
    exact List.pairwise_map.mp hmapped
  present := forall_internals_build (P := fun j => j.isNull = false).mpr hpresent

end

/-! ## There and back -/

section

variable {r : Registry} {d : EnumDef} {c : CompiledRef} {v : EnumValue}

theorem TellsApart.writes (hd : d.TellsApart) (hc : c.hook? = some d.encode)
    (hv : v ∈ d.values) {name : String} : c.Writes v.internal name ↔ name = v.name := by
  constructor
  · rintro ⟨hook, hhook, hname⟩
    obtain rfl := Option.some.inj (hc.symm.trans hhook)
    rw [hd.encode_internal hv] at hname
    cases hname
    rfl
  · rintro rfl
    exact ⟨d.encode, hc, hd.encode_internal hv⟩

theorem carries_of_nodup (hd : d.TellsApart) (hc : c.hook? = some d.encode)
    (hvalid : ∀ v ∈ d.values, Text.IsName v.name) (hnames : (d.values.map (·.name)).Nodup)
    (hv : v ∈ d.values) : d.Carries r c v.internal := by
  refine ⟨v.name, (hd.writes hc hv).mpr rfl, hvalid v hv, ?_⟩
  refine (TypeExpr.HasShape.enum d).passesAs fun table => ?_
  rw [Value.toJsonAs, decode_name hnames hv]

/-- Values that come back as what they were do not share a name. -/
theorem nodup_of_carries (hd : d.TellsApart) (hc : c.hook? = some d.encode)
    (h : ∀ v ∈ d.values, d.Carries r c v.internal) : (d.values.map (·.name)).Nodup := by
  have hback : ∀ v ∈ d.values,
      (TypeExpr.enum d).PassesAs r (.enum v.name) (.ofJson v.internal) := by
    intro v hv
    obtain ⟨name, hname, -, hpasses⟩ := h v hv
    rwa [(hd.writes hc hv).mp hname] at hpasses
  refine List.pairwise_map.mpr (hd.apart.imp_of_mem fun {v w} hv hw hne hname => ?_)
  have heq : Value.ofJson v.internal = .ofJson w.internal :=
    (hname ▸ hback v hv).unique (hback w hw)
  have hsame : v.internal = w.internal := by
    rw [← Value.toJson_ofJson v.internal, heq, Value.toJson_ofJson]
  rw [hsame, Json.same_self] at hne
  cases hne

end

end EnumDef

/-- A compiler that accepts an enum checked all its names. -/
theorem Compile.type_enum_ok {r : Registry} {d : EnumDef} {nonNull : Bool} {c : CompiledRef}
    {s : CompileState} (h : Compile.type r (.given (.enum d)) nonNull {} = .ok c s) :
    c.hook? = some d.encode ∧ ∀ v ∈ d.values, Text.IsName v.name := by
  obtain ⟨_, _, hkeep, h⟩ := bind_eq_ok.mp h
  obtain ⟨rfl, rfl⟩ := pure_eq_ok.mp h
  refine ⟨by unfold require; split <;> rfl, ?_⟩
  simp only [keepEnum, bind_eq_ok, get_eq_ok] at hkeep
  obtain ⟨_, _, ⟨rfl, rfl⟩, hkeep⟩ := hkeep
  split at hkeep
  · simp only [bind_eq_ok, lift_eq_ok] at hkeep
    obtain ⟨_, _, -, _, _, ⟨hnames, -⟩, -⟩ := hkeep
    exact checkNames_eq_ok.mp hnames
  · next hkept => exact absurd rfl hkept

section

variable {r : Registry} {name : String} {description : Option String} {case : Option EnumCase}
  {keys : List (String × Json)} {remarks : List (String × EnumRemark)} {nonNull : Bool}
  {c : CompiledRef} {s : CompileState}

/-- The internal values of an accepted enum all go out under valid names. They come back as
what they were exactly when the change of case keeps the keys apart, as it does where there is
none. -/
theorem EnumDef.carries_build_iff (hkeys : (keys.map (·.1)).Nodup)
    (hapart : keys.Pairwise fun k l => k.2.same l.2 = false)
    (hpresent : ∀ k ∈ keys, k.2.isNull = false)
    (h : Compile.type r (.given (.enum (build name description case keys remarks))) nonNull {}
      = .ok c s) :
    (∀ k ∈ keys, ∃ n, c.Writes k.2 n ∧ Text.IsName n) ∧
      ((∀ k ∈ keys, (build name description case keys remarks).Carries r c k.2) ↔
        (keys.map fun k => EnumCase.rename case k.1).Nodup) ∧
      (case = none → ∀ k ∈ keys, (build name description case keys remarks).Carries r c k.2) := by
  have hd : (build name description case keys remarks).TellsApart :=
    tellsApart_build hapart hpresent
  obtain ⟨hc, hvalid⟩ := type_enum_ok h
  have hnames : (build name description case keys remarks).values.map (·.name)
      = keys.map fun k => EnumCase.rename case k.1 := names_build
  have hcarries : (keys.map fun k => EnumCase.rename case k.1).Nodup →
      ∀ k ∈ keys, (build name description case keys remarks).Carries r c k.2 := fun hnodup =>
    forall_internals_build.mp fun v hv => carries_of_nodup hd hc hvalid (hnames ▸ hnodup) hv
  refine ⟨?_, ⟨fun hall => ?_, hcarries⟩, ?_⟩
  · exact (forall_internals_build (P := fun j => ∃ n, c.Writes j n ∧ Text.IsName n)).mp
      fun v hv => ⟨v.name, (hd.writes hc hv).mpr rfl, hvalid v hv⟩
  · rw [← hnames]
    exact nodup_of_carries hd hc (forall_internals_build.mpr hall)
  · rintro rfl
    exact hcarries hkeys

end

/-! ### Roles -/

namespace Roles

def registry : Registry := .ofDeclarations []

/-- The keys differ in how their words are run together. -/
def clashing : List (String × Json) := [("superAdmin", .str "s"), ("super_admin", .str "r")]

def distinct : List (String × Json) := [("superAdmin", .str "s"), ("plainUser", .str "u")]

def role (keys : List (String × Json)) : EnumDef := .build "Role" none (some .constant) keys []

def asks (keys : List (String × Json)) : Request := .type (.given (.enum (role keys))) true

/-- Both enums are accepted, and only the names of one are distinct. -/
theorem asks_answered :
    ((asks distinct).isAnswered registry {} = true ∧
      (distinct.map fun k => EnumCase.rename (some .constant) k.1).Nodup) ∧
    (asks clashing).isAnswered registry {} = true ∧
      ¬ ((role clashing).values.map (·.name)).Nodup := by
  decide +kernel

/-- Keys that stay apart carry both internal values. -/
theorem carries_distinct : ∃ c s,
    Compile.type registry (.given (.enum (role distinct))) true {} = .ok c s ∧
      (distinct.map fun k => EnumCase.rename (some .constant) k.1).Nodup ∧
      ∀ k ∈ distinct, (role distinct).Carries registry c k.2 := by
  obtain ⟨⟨hanswered, hnodup⟩, -⟩ := asks_answered
  obtain ⟨_, hasked⟩ := Request.ask_of_isAnswered hanswered
  obtain ⟨c, hrun, -⟩ := Compile.map_eq_ok.mp hasked
  obtain ⟨-, hiff, -⟩ := EnumDef.carries_build_iff (by decide) (by decide) (by decide) hrun
  exact ⟨c, _, hrun, hnodup, hiff.mpr hnodup⟩

/-- Keys that clash are accepted, and the second internal value does not come back. -/
theorem clashing_not_carries : ∃ c s,
    Compile.type registry (.given (.enum (role clashing))) true {} = .ok c s ∧
      (clashing.map (·.1)).Nodup ∧
      (clashing.Pairwise fun k l => k.2.same l.2 = false) ∧
      (∀ k ∈ clashing, k.2.isNull = false) ∧
      ¬ ∀ k ∈ clashing, (role clashing).Carries registry c k.2 := by
  obtain ⟨-, hanswered, hclash⟩ := asks_answered
  obtain ⟨_, hasked⟩ := Request.ask_of_isAnswered hanswered
  obtain ⟨c, hrun, -⟩ := Compile.map_eq_ok.mp hasked
  have hapart : clashing.Pairwise fun k l => k.2.same l.2 = false := by decide
  have hpresent : ∀ k ∈ clashing, k.2.isNull = false := by decide
  refine ⟨c, _, hrun, by decide, hapart, hpresent, fun hall => ?_⟩
  have hnodup := EnumDef.nodup_of_carries (EnumDef.tellsApart_build hapart hpresent)
    (type_enum_ok hrun).1 (EnumDef.forall_internals_build.mpr hall)
  exact hclash hnodup

end Roles

end SchemaGraph
