import SchemaGraph.Proofs.Declared.WellFormed

/-!
# How declarations end

A declaration checks first and changes the registry afterwards, so it ends in one
of two ways: it is accepted, and the registry is the one with the new node, or it
is refused and the registry is the one it was put to. Declaring an interface is
the exception. Whether implements edges wait for it is found out only after its
members have been taken out of the waiting room, and when it is refused for them
the members are gone.

`Accepted` lists what each declaration checks and what it makes of the registry;
every later fact about declarations is derived from it.
-/

set_option autoImplicit false

namespace SchemaGraph

/-- The host type on whose behalf something is declared. -/
def Declaration.type : Declaration → HostType
  | .object t _ => t
  | .interface t _ => t
  | .inputObject c _ => c.type
  | .args c => c.type
  | .field t _ => t
  | .inputField t _ => t
  | .arg t _ _ => t
  | .implement t _ => t

/-- The declaration passes its checks and leaves the second registry behind. -/
inductive Declaration.Accepted (r : Registry) : Declaration → Registry → Prop where
  | object {t : HostType} {decl : ObjectDecl} {metadata : TypeMetadata} :
      r.types.contains t = false →
      TypeMetadata.ofDecl t decl.name? decl.description = .ok metadata →
      Accepted r (.object t decl) (r.declareObject t decl metadata)
  | interface {t : HostType} {decl : TypeDecl} {metadata : TypeMetadata} :
      r.types.contains t = false →
      TypeMetadata.ofDecl t decl.name? decl.description = .ok metadata →
      r.stagedOf t .implement = [] →
      Accepted r (.interface t decl) (r.declareInterface t metadata)
  | inputObject {c : InputConstructor} {decl : TypeDecl} {metadata : TypeMetadata} :
      r.types.contains c.type = false →
      TypeMetadata.ofDecl c.type decl.name? decl.description = .ok metadata →
      Accepted r (.inputObject c decl) (r.declareInputObject c metadata)
  | args {c : InputConstructor} :
      r.args.contains c.type = false →
      Accepted r (.args c) (r.declareArgs c)
  | field {t : HostType} {decl : FieldDecl} :
      checkName decl.name = .ok () →
      Accepted r (.field t decl) (r.stage t (.field ⟨t, decl, []⟩))
  | inputField {t : HostType} {decl : InputDecl} :
      checkName decl.name = .ok () →
      Accepted r (.inputField t decl) (r.stage t (.inputField ⟨t, decl⟩))
  | arg {t : HostType} {field : String} {decl : InputDecl} :
      checkName decl.name = .ok () →
      Declare.argIsStaged r t field = false →
      Accepted r (.arg t field decl) (r.stage t (.arg ⟨t, field, decl⟩))
  | implement {t i : HostType} {id : NodeId} :
      r.getNode i = .ok id →
      (r.node id).isInterface = true →
      Accepted r (.implement t i) (r.stage t (.implement ⟨t, id⟩))

/-- An interface that would be accepted if no implements edges waited for it. -/
def Declaration.GivesUp (r : Registry) (d : Declaration) : Prop :=
  ∃ t decl metadata, d = .interface t decl ∧ r.types.contains t = false ∧
    TypeMetadata.ofDecl t decl.name? decl.description = .ok metadata ∧
    r.stagedOf t .implement ≠ []

namespace Declare

variable {α β : Type} {r : Registry}

/-- A check that fails ends everything, and one that passes changes nothing. -/
theorem check_cases (f : Registry → Except SchemaError α) (g : α → RegistryM β)
    (r : Registry) :
    (∃ e, f r = .error e ∧ (check f >>= g) r = .error e r) ∨
      ∃ a, f r = .ok a ∧ (check f >>= g) r = g a r := by
  show (∃ e, f r = .error e ∧ EStateM.bind (check f) g r = .error e r) ∨
    ∃ a, f r = .ok a ∧ EStateM.bind (check f) g r = g a r
  unfold EStateM.bind check
  cases f r with
  | ok a => exact Or.inr ⟨a, rfl, rfl⟩
  | error e => exact Or.inl ⟨e, rfl, rfl⟩

/-- The checks that all types begin with: nothing is declared for the host type, and
the name is one. -/
theorem checkType_cases (t : HostType) (name? description : Option String)
    (g : TypeMetadata → RegistryM β) (r : Registry) :
    let run := do
      check (·.checkUndeclared t)
      let metadata ← check fun _ => TypeMetadata.ofDecl t name? description
      g metadata
    (∃ e, run r = .error e r ∧ ∀ metadata, r.types.contains t = false →
        TypeMetadata.ofDecl t name? description ≠ .ok metadata) ∨
      ∃ metadata, r.types.contains t = false ∧
        TypeMetadata.ofDecl t name? description = .ok metadata ∧
        run r = g metadata r := by
  intro run
  rcases check_cases (·.checkUndeclared t) _ r with ⟨e, hused, hrun⟩ | ⟨u, hfresh, hrun⟩
  · refine Or.inl ⟨e, hrun, fun _ hfresh => ?_⟩
    simp [Registry.checkUndeclared, hfresh] at hused
  · rcases check_cases (fun _ => TypeMetadata.ofDecl t name? description) g r with
      ⟨e, hname, hrest⟩ | ⟨metadata, hmetadata, hrest⟩
    · refine Or.inl ⟨e, hrun.trans hrest, fun _ _ hmetadata => ?_⟩
      rw [hname] at hmetadata
      cases hmetadata
    · exact Or.inr ⟨metadata, Registry.WellFormed.fresh_of_checkUndeclared hfresh,
        hmetadata, hrun.trans hrest⟩

end Declare

namespace Declaration

open Declare

variable {r r' : Registry}

/-- The declaration fails and changes nothing. -/
def Refused (r : Registry) (d : Declaration) : Prop :=
  ∃ e, d.run r = .error e r ∧ ¬ d.GivesUp r

theorem refused {d : Declaration} {e : SchemaError} (h : d.run r = .error e r)
    (hd : ∀ t decl, d ≠ .interface t decl) : d.Refused r := by
  refine ⟨e, h, ?_⟩
  rintro ⟨t, decl, _, heq, -⟩
  exact hd t decl heq

/-- A declaration is refused, or it is an interface that gives its members up, or
it is accepted. -/
theorem run_cases (r : Registry) (d : Declaration) :
    d.Refused r ∨
      (∃ e, d.run r = .error e (r.unstage d.type) ∧ d.GivesUp r) ∨
      ∃ r', d.run r = .ok r.size r' ∧ Accepted r d r' := by
  cases d with
  | object t decl =>
      rcases checkType_cases t decl.name? decl.description _ r with
        ⟨e, hrun, -⟩ | ⟨metadata, hfresh, hmetadata, hrun⟩
      · exact Or.inl (refused hrun (by simp))
      · exact Or.inr (Or.inr ⟨_, hrun, .object hfresh hmetadata⟩)
  | interface t decl =>
      rcases checkType_cases t decl.name? decl.description _ r with
        ⟨e, hrun, hnot⟩ | ⟨metadata, hfresh, hmetadata, hrun⟩
      · refine Or.inl ⟨e, hrun, ?_⟩
        rintro ⟨_, _, metadata, ⟨⟩, hfresh, hmetadata, -⟩
        exact hnot metadata hfresh hmetadata
      · by_cases hedges : r.stagedOf t .implement = []
        · refine Or.inr (Or.inr ⟨_, hrun.trans ?_, .interface hfresh hmetadata hedges⟩)
          exact congrFun (if_neg (not_not_intro hedges)) r
        · refine Or.inr (Or.inl ⟨.notAnObject metadata.name, hrun.trans ?_,
            t, decl, metadata, rfl, hfresh, hmetadata, hedges⟩)
          exact congrFun (if_pos hedges) r
  | inputObject c decl =>
      rcases checkType_cases c.type decl.name? decl.description _ r with
        ⟨e, hrun, -⟩ | ⟨metadata, hfresh, hmetadata, hrun⟩
      · exact Or.inl (refused hrun (by simp))
      · exact Or.inr (Or.inr ⟨_, hrun, .inputObject hfresh hmetadata⟩)
  | args c =>
      by_cases hused : r.args.contains c.type = true
      · exact Or.inl (refused (congrFun (if_pos hused) r) (by simp))
      · refine Or.inr (Or.inr ⟨_, ?_, .args (Bool.eq_false_iff.mpr hused)⟩)
        exact congrFun (if_neg hused) r
  | field t decl =>
      rcases check_cases (fun _ => checkName decl.name) _ r with
        ⟨e, -, hrun⟩ | ⟨u, hname, hrun⟩
      · exact Or.inl (refused hrun (by simp))
      · exact Or.inr (Or.inr ⟨_, hrun, .field hname⟩)
  | inputField t decl =>
      rcases check_cases (fun _ => checkName decl.name) _ r with
        ⟨e, -, hrun⟩ | ⟨u, hname, hrun⟩
      · exact Or.inl (refused hrun (by simp))
      · exact Or.inr (Or.inr ⟨_, hrun, .inputField hname⟩)
  | arg t field decl =>
      rcases check_cases (fun _ => checkName decl.name) _ r with
        ⟨e, -, hrun⟩ | ⟨u, hname, hrun⟩
      · exact Or.inl (refused hrun (by simp))
      · by_cases hwaits : argIsStaged r t field = true
        · exact Or.inl (refused (hrun.trans (congrFun (if_pos hwaits) r)) (by simp))
        · refine Or.inr (Or.inr ⟨_, hrun.trans ?_,
            .arg hname (Bool.eq_false_iff.mpr hwaits)⟩)
          exact congrFun (if_neg hwaits) r
  | implement t i =>
      rcases check_cases (·.getNode i) _ r with ⟨e, -, hrun⟩ | ⟨id, hid, hrun⟩
      · exact Or.inl (refused hrun (by simp))
      · by_cases hinterface : (r.node id).isInterface = true
        · refine Or.inr (Or.inr ⟨_, hrun.trans ?_, .implement hid hinterface⟩)
          exact congrFun (if_pos hinterface) r
        · exact Or.inl (refused (hrun.trans (congrFun (if_neg hinterface) r)) (by simp))

end Declaration

end SchemaGraph
